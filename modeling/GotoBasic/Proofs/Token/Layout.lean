import GotoBasic.Proofs.Token.Protected
import GotoBasic.Proofs.Token.Written

/-!
# Laying out tokens

A list of tokens can be laid out as a text: each token is written so that it does not depend on what
stands behind it, and blanks keep it apart from the next one (`Lexer.Lays`).  Such a text is scanned
to the tokens again (`Lexer.scan_of_lays`).  Every token but the end of input can be written; a
string is written with a backslash before its quote and before every backslash in it
(`Lexer.writes_spellOut`).
-/

namespace GotoBasic.Lexer

/-- A text is a token wherever it stands apart from what is behind it.  In a string every quote is
protected, and no backslash at its end protects the quote that closes it. -/
inductive Writes : TokenKind × String → List Char → Prop
  | plain {x : TokenKind × String} (plain : Plain x) : Writes x x.2.toList
  | string {q : Char} {body value : List Char} (quote : isQuote q)
      (passed : Visits body body.length) (closed : ∀ k, ¬ Bare q body k)
      (replaced : Unescapes body value) :
      Writes (.string, String.ofList value) (q :: (body ++ [q]))

/-- A text in which tokens stand one behind the other, with blanks between them.  A line feed needs
no blanks around it. -/
inductive Lays : List (TokenKind × String) → List Char → Prop
  | nil : Lays [] []
  | blank {w : List (TokenKind × String)} {cs : List Char} (more : Lays w cs) : Lays w (' ' :: cs)
  | feed {w : List (TokenKind × String)} {cs : List Char} (more : Lays w cs) :
      Lays ((.newline, "\n") :: w) ('\n' :: cs)
  | token {x : TokenKind × String} {w : List (TokenKind × String)} {text cs : List Char}
      (writes : Writes x text) (apart : Apart cs) (more : Lays w cs) : Lays (x :: w) (text ++ cs)

variable {q c : Char} {cs text y : List Char} {x : TokenKind × String}
  {w : List (TokenKind × String)}

/-! ## Scanning -/

theorem Writes.exists_lexeme? (writes : Writes x text) (apart : Apart y) :
    ∃ c cs, text = c :: cs ∧ lexeme? c (cs ++ y) = some ⟨some x, cs.length + 1⟩ := by
  cases writes with
  | plain plain =>
    obtain ⟨c, cs, shape, found⟩ := lexeme?_of_plain plain
    refine ⟨c, cs, shape, ?_⟩
    have notQuote := isQuote_eq_false_of_plain plain c (by rw [shape]; exact List.mem_cons_self)
    refine lexeme?_splice (y := []) apart (fun quote => ?_) ?_ (Nat.le_refl _) nofun
    · rw [notQuote] at quote
      cases quote
    · rw [List.append_nil]
      exact found
  | @string q body value quote passed closed replaced =>
    refine ⟨q, body ++ [q], rfl, ?_⟩
    rw [lexeme?_of_isQuote quote, string?, List.append_assoc, List.singleton_append,
      bodyLength?_of_visits (ne_backslash_of_isQuote quote) passed closed, Option.map_some,
      List.take_left, replaced.eq_unescape]
    simp

/-- A token in front of a text that stands apart from it. -/
theorem scan_append_of_writes (writes : Writes x text) (apart : Apart y) (pos : Pos) :
    scan 0 pos (text ++ y) = (scan 0 (pos.afterAll text) y).map (⟨x.1, x.2, pos⟩ :: ·) := by
  obtain ⟨c, cs, rfl, found⟩ := writes.exists_lexeme? apart
  rw [List.cons_append, scan_cons pos found, Nat.add_sub_cancel, List.take_left, List.drop_left]
  rfl

/-- A text is scanned to the tokens that are laid out in it. -/
theorem scan_of_lays (lays : Lays w cs) (pos : Pos) :
    ∃ ts last, scan 0 pos cs = .ok (ts ++ [⟨.eof, "", last⟩]) ∧ ts.map Token.spelling = w := by
  induction lays generalizing pos with
  | nil => exact ⟨[], pos, rfl, rfl⟩
  | @blank w cs more ih =>
    obtain ⟨ts, last, scanned, spelled⟩ := ih (pos.after ' ')
    refine ⟨ts, last, ?_, spelled⟩
    rw [scan_cons (l := ⟨none, 1⟩) pos rfl]
    change (scan 0 (pos.after ' ') cs).map ([] ++ ·) = _
    rw [scanned]
    rfl
  | @feed w cs more ih =>
    obtain ⟨ts, last, scanned, spelled⟩ := ih (pos.after '\n')
    refine ⟨⟨.newline, "\n", pos⟩ :: ts, last, ?_, by rw [List.map_cons, spelled]; rfl⟩
    have found : lexeme? '\n' cs = some (.spelled .newline ['\n']) := by cases cs <;> rfl
    rw [scan_cons pos found]
    change (scan 0 (pos.after '\n') cs).map ([⟨.newline, "\n", pos⟩] ++ ·) = _
    rw [scanned]
    rfl
  | @token x w text cs writes apart more ih =>
    obtain ⟨ts, last, scanned, spelled⟩ := ih (pos.afterAll text)
    refine ⟨⟨x.1, x.2, pos⟩ :: ts, last, ?_, by rw [List.map_cons, spelled]; rfl⟩
    rw [scan_append_of_writes writes apart pos, scanned]
    rfl

/-! ## Writing -/

/-- The content of a string between two quotes, with a backslash before each of them and before
each backslash. -/
def escape (q : Char) : List Char → List Char
  | [] => []
  | c :: cs => if c = q ∨ c = '\\' then '\\' :: c :: escape q cs else c :: escape q cs

theorem unescapes_escape (q : Char) (cs : List Char) : Unescapes (escape q cs) cs := by
  fun_induction escape q cs with
  | case1 => exact .nil
  | case2 c cs special ih => exact .pair c ih
  | case3 c cs plain ih => exact .single (not_or.1 plain).2 ih

theorem visits_escape (q : Char) (cs : List Char) :
    Visits (escape q cs) (escape q cs).length := by
  fun_induction escape q cs with
  | case1 => exact .start []
  | case2 c cs special ih => exact .pair c ih
  | case3 c cs plain ih => exact .single (not_or.1 plain).2 ih

theorem not_bare_escape (notBackslash : q ≠ '\\') (cs : List Char) (k : Nat) :
    ¬ Bare q (escape q cs) k := by
  fun_induction escape q cs generalizing k with
  | case1 => exact not_bare_nil
  | case2 c cs special ih =>
    rw [bare_pair_iff notBackslash]
    rintro ⟨m, -, bare⟩
    exact ih m bare
  | case3 c cs plain ih =>
    rw [bare_single_iff (not_or.1 plain).2]
    rintro (⟨-, same⟩ | ⟨m, -, bare⟩)
    · exact plain (.inl same)
    · exact ih m bare

/-- Spellings without quotes and strings: all tokens but the end of input. -/
def Writable (x : TokenKind × String) : Prop := Plain x ∨ x.1 = .string

/-- How a token is written.  A string stands between two quotes `q`, with a backslash before each of
these quotes and before each backslash in it; any other token is its own text. -/
def spellOut (q : Char) (x : TokenKind × String) : List Char :=
  if x.1 = .string then q :: (escape q x.2.toList ++ [q]) else x.2.toList

theorem writes_spellOut (quote : isQuote q) (writable : Writable x) : Writes x (spellOut q x) := by
  unfold spellOut
  rcases writable with plain | string
  · rw [if_neg plain.2.1]
    exact .plain plain
  · rcases x with ⟨kind, s⟩
    cases string
    have closed := not_bare_escape (ne_backslash_of_isQuote quote) s.toList
    have writes := Writes.string quote (visits_escape q s.toList) closed (unescapes_escape q _)
    rw [String.ofList_toList] at writes
    rw [if_pos rfl]
    exact writes

/-- Tokens that can be written can be laid out. -/
theorem exists_lays (writable : ∀ x ∈ w, Writable x) : ∃ cs, Lays w cs := by
  induction w with
  | nil => exact ⟨[], .nil⟩
  | cons x w ih =>
    obtain ⟨first, rest⟩ := List.forall_mem_cons.1 writable
    have writes := writes_spellOut (q := Char.ofNat 0x22) rfl first
    obtain ⟨cs, more⟩ := ih rest
    refine ⟨_ ++ ' ' :: cs, .token writes (fun c head => ?_) (.blank more)⟩
    cases head
    exact .inl rfl

theorem lays_written (plain : ∀ x ∈ w, Plain x) : Lays w (written w) := by
  induction w with
  | nil => exact .blank .nil
  | cons x w ih =>
    obtain ⟨first, rest⟩ := List.forall_mem_cons.1 plain
    exact .blank (.token (.plain first) (written_spaced rest).apart (ih rest))

/-- Spellings without quotes that are written with blanks around them are scanned to tokens that
are spelled so. -/
theorem scan_written (plain : ∀ x ∈ w, Plain x) (pos : Pos) :
    ∃ ts last, scan 0 pos (written w) = .ok (ts ++ [⟨.eof, "", last⟩]) ∧
      ts.map Token.spelling = w :=
  scan_of_lays (lays_written plain) pos

end GotoBasic.Lexer
