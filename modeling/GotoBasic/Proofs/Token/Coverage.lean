import GotoBasic.Proofs.Token.Denotes
import GotoBasic.Proofs.Token.Position
import Mathlib.Data.List.Forall2

/-!
# Tokens cover their text

Scanning loses nothing of a text.  Every token but the end of input comes from a range of the text
that denotes it, the ranges stand in order, and what lies between them is blanks and comments
(`Lexer.Covers`).  A text that cannot be scanned can be scanned up to the place where it fails.
Both are stated for whole texts in `tokenize_covers_source`; scanning from an offset on
(`Lexer.scanFrom`) is what the inductions are about.
-/

namespace GotoBasic

namespace Lexer

/-! ## Ranges -/

/-- The characters of a text from one offset up to and not including another. -/
structure Range where
  start : Nat
  stop : Nat
  deriving DecidableEq, Repr

/-- A range of a text denotes a token and no other, and the token stands where the range starts. -/
structure Lexes (cs : List Char) (r : Range) (t : Token) : Prop where
  nonempty : r.start < r.stop
  inside : r.stop ≤ cs.length
  denotes : ∀ x, Denotes (cs.extract r.start r.stop) x ↔ x = t.spelling
  pos : t.pos.IsAt cs r.start

/-- Between two offsets of a text there are only blanks and comments. -/
structure GapBetween (cs : List Char) (i j : Nat) : Prop where
  le : i ≤ j
  gap : Gap (cs.extract i j) (cs.drop j)

/-- Behind the offset `i` a text is covered by ranges in order, one for each token, with only blanks
and comments before, between and behind them. -/
structure Covers (cs : List Char) (i : Nat) (ranges : List Range) (ts : List Token) : Prop where
  lexes : List.Forall₂ (Lexes cs) ranges ts
  gaps : List.Forall₂ (GapBetween cs) (i :: ranges.map Range.stop)
    (ranges.map Range.start ++ [cs.length])

/-! ## Scanning from an offset on -/

/-- Scans a text from an offset on. -/
def scanFrom (cs : List Char) (n : Nat) : Except LexError (List Token) :=
  scan 0 (Pos.start.afterAll (cs.take n)) (cs.drop n)

variable {cs rest : List Char} {c : Char} {l : Lexeme} {n : Nat}

theorem lt_length_of_drop (here : cs.drop n = c :: rest) : n < cs.length := by
  have size := congrArg List.length here
  rw [List.length_drop, List.length_cons] at size
  omega

/-- No lexeme reaches beyond the text. -/
theorem add_length_le_of_drop (here : cs.drop n = c :: rest) (found : lexeme? c rest = some l) :
    n + l.length ≤ cs.length := by
  have within := length_le_of_lexeme? found
  have below := lt_length_of_drop here
  rw [← here, List.length_drop] at within
  omega

/-- Scanning passes the lexeme at an offset. -/
theorem scanFrom_step (here : cs.drop n = c :: rest) (found : lexeme? c rest = some l) :
    scanFrom cs n =
      (scanFrom cs (n + l.length)).map (l.tokens (Pos.start.afterAll (cs.take n)) ++ ·) := by
  obtain ⟨k, size⟩ : ∃ k, l.length = k + 1 :=
    ⟨l.length - 1, (Nat.sub_add_cancel (length_pos_of_lexeme? found)).symm⟩
  have front : cs.take (n + l.length) = cs.take n ++ c :: rest.take k := by
    rw [List.take_add, here, size, List.take_succ_cons]
  have behind : cs.drop (n + l.length) = rest.drop k := by
    rw [← List.drop_drop, here, size, List.drop_succ_cons]
  unfold scanFrom
  rw [front, behind, here, scan_cons _ found, size, Nat.add_sub_cancel, Pos.afterAll_append,
    Pos.afterAll_cons]

/-- At the end of the text there is only the end of input. -/
theorem scanFrom_end (ended : cs.drop n = []) :
    scanFrom cs n = .ok [⟨.eof, "", Pos.start.afterAll cs⟩] := by
  have whole : cs.take n = cs := by
    rw [← List.append_nil (cs.take n), ← ended, List.take_append_drop]
  rw [scanFrom, ended, whole, scan]

theorem scanFrom_fails (here : cs.drop n = c :: rest) (found : lexeme? c rest = none) :
    scanFrom cs n = .error ⟨Pos.start.afterAll (cs.take n), String.ofList (cs.drop n)⟩ := by
  rw [scanFrom, here, scan, found]

/-- Scanning comes to the end of the text, or to a place where no rule applies, or passes a lexeme
and goes on. -/
theorem scanFrom_induction {P : Nat → Except LexError (List Token) → Prop}
    (ended : ∀ n, n ≤ cs.length → cs.drop n = [] →
      P n (.ok [⟨.eof, "", Pos.start.afterAll cs⟩]))
    (fails : ∀ n c rest, cs.drop n = c :: rest → lexeme? c rest = none →
      P n (.error ⟨Pos.start.afterAll (cs.take n), String.ofList (cs.drop n)⟩))
    (step : ∀ n c rest l, cs.drop n = c :: rest → lexeme? c rest = some l →
      P (n + l.length) (scanFrom cs (n + l.length)) →
      P n ((scanFrom cs (n + l.length)).map
        (l.tokens (Pos.start.afterAll (cs.take n)) ++ ·)))
    (inside : n ≤ cs.length) : P n (scanFrom cs n) := by
  induction size : cs.length - n using Nat.strongRecOn generalizing n with
  | ind k ih =>
    cases here : cs.drop n with
    | nil =>
      rw [scanFrom_end here]
      exact ended n inside here
    | cons c rest =>
      cases found : lexeme? c rest with
      | none =>
        rw [scanFrom_fails here found]
        exact fails n c rest here found
      | some l =>
        rw [scanFrom_step here found]
        have progress := length_pos_of_lexeme? found
        have later := add_length_le_of_drop here found
        exact step n c rest l here found (ih _ (by omega) later rfl)

/-- A stretch that starts with a lexeme. -/
theorem extract_eq_append (here : cs.drop n = c :: rest) {k j : Nat} (inside : n + k ≤ j) :
    cs.extract n j = (c :: rest).take k ++ cs.extract (n + k) j := by
  have parts : j - n = k + (j - (n + k)) := by omega
  rw [List.extract_eq_take_drop, List.extract_eq_take_drop, parts, List.take_add,
    List.drop_drop, here]

theorem extract_self (cs : List Char) (n : Nat) : cs.extract n n = [] := by
  rw [List.extract_eq_take_drop, Nat.sub_self, List.take_zero]

/-! ## Texts that are scanned to their end -/

/-- The range of a lexeme denotes what the lexeme denotes. -/
theorem lexes_of_lexeme? {x : TokenKind × String} (here : cs.drop n = c :: rest)
    (found : lexeme? c rest = some l) (denoted : l.denotes = some x) :
    Lexes cs ⟨n, n + l.length⟩ ⟨x.1, x.2, Pos.start.afterAll (cs.take n)⟩ := by
  have denotes : Denotes (cs.extract n (n + l.length)) x := by
    rw [extract_eq_append here (Nat.le_refl _), extract_self, List.append_nil]
    refine denotes_of_lexeme? ?_
    rw [← denoted]
    exact found
  refine ⟨Nat.lt_add_of_pos_right (length_pos_of_lexeme? found), add_length_le_of_drop here found,
    fun y => ⟨fun other => other.unique denotes, ?_⟩,
    Pos.isAt_afterAll_take (Nat.le_of_lt (lt_length_of_drop here))⟩
  rintro rfl
  exact denotes

theorem GapBetween.refl (cs : List Char) (n : Nat) : GapBetween cs n n :=
  ⟨Nat.le_refl n, by rw [extract_self]; exact .nil _⟩

/-- What the rules skip continues a gap to the front. -/
theorem GapBetween.skip {j : Nat} (here : cs.drop n = c :: rest) (found : lexeme? c rest = some l)
    (skipped : l.denotes = none) (gap : GapBetween cs (n + l.length) j) : GapBetween cs n j := by
  have progress := length_pos_of_lexeme? found
  refine ⟨Nat.le_trans (Nat.le_add_right n _) gap.le, ?_⟩
  have behind : rest.drop (l.length - 1) = cs.extract (n + l.length) j ++ cs.drop j := by
    have whole : rest.drop (l.length - 1) = cs.drop (n + l.length) := by
      obtain ⟨k, size⟩ : ∃ k, l.length = k + 1 := ⟨l.length - 1, (Nat.sub_add_cancel progress).symm⟩
      rw [← List.drop_drop, here, size, List.drop_succ_cons, Nat.add_sub_cancel]
    have split := List.take_append_drop (j - (n + l.length)) (cs.drop (n + l.length))
    rw [List.drop_drop, Nat.add_sub_cancel' gap.le] at split
    rw [whole, List.extract_eq_take_drop, split]
  rw [extract_eq_append here gap.le]
  refine Gap.of_lexeme? ?_ behind gap.gap
  rw [← skipped]
  exact found

/-- Behind the last lexeme there is nothing to cover. -/
theorem Covers.nil (ended : cs.drop n = []) (inside : n ≤ cs.length) : Covers cs n [] [] := by
  have same : n = cs.length := Nat.le_antisymm inside (List.drop_eq_nil_iff.1 ended)
  subst same
  exact ⟨.nil, .cons (.refl cs cs.length) .nil⟩

/-- The range of a lexeme that denotes a token is the first. -/
theorem Covers.cons {i j : Nat} {ranges : List Range} {t : Token} {ts : List Token}
    (lexes : Lexes cs ⟨i, j⟩ t) (covers : Covers cs j ranges ts) :
    Covers cs i (⟨i, j⟩ :: ranges) (t :: ts) :=
  ⟨.cons lexes covers.lexes, .cons (.refl cs i) covers.gaps⟩

/-- What is skipped extends the first gap. -/
theorem Covers.skip {ranges : List Range} {ts : List Token} (here : cs.drop n = c :: rest)
    (found : lexeme? c rest = some l) (skipped : l.denotes = none)
    (covers : Covers cs (n + l.length) ranges ts) : Covers cs n ranges ts := by
  obtain ⟨lexes, gaps⟩ := covers
  refine ⟨lexes, ?_⟩
  revert gaps
  generalize ranges.map Range.start ++ [cs.length] = ends
  intro gaps
  cases gaps with
  | cons first more => exact .cons (first.skip here found skipped) more

/-- A text that is scanned from an offset on is covered from there on. -/
theorem covers_of_scanFrom {ts : List Token} (inside : n ≤ cs.length)
    (scanned : scanFrom cs n = .ok ts) :
    ∃ body ranges, ts = body ++ [⟨.eof, "", Pos.start.afterAll cs⟩] ∧ Covers cs n ranges body := by
  refine scanFrom_induction (P := fun n r => ∀ ts, r = .ok ts → ∃ body ranges,
    ts = body ++ [⟨.eof, "", Pos.start.afterAll cs⟩] ∧ Covers cs n ranges body)
    ?_ ?_ ?_ inside ts scanned
  · intro n inside ended ts scanned
    cases scanned
    exact ⟨[], [], rfl, .nil ended inside⟩
  · intro n c rest here found ts scanned
    cases scanned
  · intro n c rest l here found ih ts scanned
    cases more : scanFrom cs (n + l.length) with
    | error e =>
      rw [more] at scanned
      cases scanned
    | ok ts' =>
      rw [more] at scanned
      cases scanned
      obtain ⟨body, ranges, rfl, covers⟩ := ih ts' more
      cases denoted : l.denotes with
      | none =>
        refine ⟨body, ranges, ?_, covers.skip here found denoted⟩
        rw [Lexeme.tokens, denoted]
        rfl
      | some x =>
        refine ⟨_ :: body, _, ?_, covers.cons (lexes_of_lexeme? here found denoted)⟩
        rw [Lexeme.tokens, denoted]
        rfl

/-! ## Texts that are not -/

/-- A lexeme before the end of a text is found as well when the text is cut off behind it. -/
theorem lexeme?_take (here : cs.drop n = c :: rest) (found : lexeme? c rest = some l) {k : Nat}
    (before : n + l.length ≤ k) (inside : k < cs.length) :
    ∃ rest', (cs.take k).drop n = c :: rest' ∧ lexeme? c rest' = some l := by
  have progress := length_pos_of_lexeme? found
  obtain ⟨m, room⟩ : ∃ m, k - n = m + 1 := ⟨k - n - 1, by omega⟩
  have size := congrArg List.length here
  rw [List.length_drop, List.length_cons] at size
  refine ⟨rest.take m, by rw [List.drop_take, here, room, List.take_succ_cons], ?_⟩
  have found' : lexeme? c (rest.take m ++ rest.drop m) = some l := by
    rw [List.take_append_drop]
    exact found
  rw [← List.append_nil (rest.take m)]
  refine lexeme?_splice (fun _ none => nomatch none) (fun _ => List.not_mem_nil) found' ?_
    fun _ => ?_
  · rw [List.length_cons, List.length_take]
    omega
  · rw [List.take_append_drop, List.length_cons]
    omega

/-- A text that cannot be scanned can be scanned up to some offset, where no rule applies. -/
theorem scanFrom_error {e : LexError} (inside : n ≤ cs.length)
    (failed : scanFrom cs n = .error e) :
    ∃ k, n ≤ k ∧ k < cs.length ∧
      e = ⟨Pos.start.afterAll (cs.take k), String.ofList (cs.drop k)⟩ ∧ Stuck (cs.drop k) ∧
      ∃ ts, scanFrom (cs.take k) n = .ok ts := by
  refine scanFrom_induction (P := fun n r => ∀ e, r = .error e → ∃ k, n ≤ k ∧ k < cs.length ∧
    e = ⟨Pos.start.afterAll (cs.take k), String.ofList (cs.drop k)⟩ ∧ Stuck (cs.drop k) ∧
    ∃ ts, scanFrom (cs.take k) n = .ok ts) ?_ ?_ ?_ inside e failed
  · intro n inside ended e failed
    cases failed
  · intro n c rest here found e failed
    cases failed
    refine ⟨n, Nat.le_refl n, lt_length_of_drop here, rfl, ?_, _, scanFrom_end ?_⟩
    · rw [here]
      exact stuck_of_lexeme? found
    · exact List.drop_eq_nil_iff.2 (List.length_take_le n cs)
  · intro n c rest l here found ih e failed
    cases more : scanFrom cs (n + l.length) with
    | ok ts =>
      rw [more] at failed
      cases failed
    | error e' =>
      rw [more] at failed
      cases failed
      obtain ⟨k, before, below, shape, stuck, ts, scanned⟩ := ih e more
      obtain ⟨rest', here', found'⟩ := lexeme?_take here found before below
      refine ⟨k, Nat.le_trans (Nat.le_add_right n _) before, below, shape, stuck,
        l.tokens (Pos.start.afterAll ((cs.take k).take n)) ++ ts, ?_⟩
      exact (scanFrom_step here' found').trans (congrArg _ scanned)

/-! ## Whole texts -/

theorem tokenize_eq_scanFrom (source : String) : tokenize source = scanFrom source.toList 0 := rfl

end Lexer

open Lexer in
/-- Scanning loses nothing and tells true positions.  The tokens of a text that is scanned come from
ranges in order that denote them, with only blanks and comments around the ranges, and the end of
input stands at the end of the text.  A text that is not scanned is reported from the first place
where no rule applies, and what stands before that place can be scanned. -/
theorem tokenize_covers_source (source : String) :
    (∀ ts, tokenize source = .ok ts → ∃ body last ranges, ts = body ++ [⟨.eof, "", last⟩] ∧
      last.IsAt source.toList source.toList.length ∧ Covers source.toList 0 ranges body) ∧
    (∀ e, tokenize source = .error e → ∃ n < source.toList.length,
      e.rest = String.ofList (source.toList.drop n) ∧ e.pos.IsAt source.toList n ∧
      Stuck (source.toList.drop n) ∧
      ∃ ts, tokenize (String.ofList (source.toList.take n)) = .ok ts) := by
  have whole := Pos.isAt_afterAll_take (Nat.le_refl source.toList.length)
  rw [List.take_length] at whole
  refine ⟨fun ts scanned => ?_, fun e failed => ?_⟩
  · rw [tokenize_eq_scanFrom] at scanned
    obtain ⟨body, ranges, shape, covers⟩ := covers_of_scanFrom (Nat.zero_le _) scanned
    exact ⟨body, _, ranges, shape, whole, covers⟩
  · rw [tokenize_eq_scanFrom] at failed
    obtain ⟨n, -, below, rfl, stuck, ts, scanned⟩ := scanFrom_error (Nat.zero_le _) failed
    refine ⟨n, below, rfl, Pos.isAt_afterAll_take (Nat.le_of_lt below), stuck, ts, ?_⟩
    rw [tokenize_eq_scanFrom, String.toList_ofList]
    exact scanned

/-- A string over two lines with a protected quote, a comment that joins its line to the next, and a
text that ends in a character of no rule. -/
theorem tokenize_covers_commented :
    (∃ ts, tokenize "A: PRINT `x\n\\`y` // z\n  | 12.5\n" = .ok ts ∧
      ∃ body last ranges, ts = body ++ [⟨.eof, "", last⟩] ∧
        last.IsAt "A: PRINT `x\n\\`y` // z\n  | 12.5\n".toList
          "A: PRINT `x\n\\`y` // z\n  | 12.5\n".toList.length ∧
        Lexer.Covers "A: PRINT `x\n\\`y` // z\n  | 12.5\n".toList 0 ranges body) ∧
    ∃ e, tokenize "`x\n\\`  7 & 8" = .error e ∧ ∃ n < "`x\n\\`  7 & 8".toList.length,
      e.rest = String.ofList ("`x\n\\`  7 & 8".toList.drop n) ∧
        e.pos.IsAt "`x\n\\`  7 & 8".toList n ∧ Lexer.Stuck ("`x\n\\`  7 & 8".toList.drop n) ∧
        ∃ ts, tokenize (String.ofList ("`x\n\\`  7 & 8".toList.take n)) = .ok ts :=
  ⟨⟨_, rfl, (tokenize_covers_source _).1 _ rfl⟩, _, rfl, (tokenize_covers_source _).2 _ rfl⟩

end GotoBasic
