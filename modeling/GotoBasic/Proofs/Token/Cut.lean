import GotoBasic.Proofs.Token.LineEnds
import GotoBasic.Proofs.Token.Position

/-!
# Texts cut at line starts

A text can be scanned line by line.  What stands before a line feed is scanned to the same tokens
whatever stands behind it, and scanning goes on from there as from the start of a text, only some
lines further down (`tokenize_append`).  One rule looks beyond the line feed: a string all of whose
quotes are protected ends at the last quote of the whole text, so the strings before the cut have to
be closed (`Lexer.ClosesStrings`).
-/

namespace GotoBasic

/-! ## Further down -/

/-- The position some lines further down, in the same column. -/
def Pos.below (lines : Nat) (p : Pos) : Pos := ⟨p.line + lines, p.col⟩

/-- The token some lines further down, in the same column. -/
def Token.below (lines : Nat) (t : Token) : Token := { t with pos := t.pos.below lines }

/-- The error some lines further down, in the same column, about the same rest of the text. -/
def LexError.below (lines : Nat) (e : LexError) : LexError := { e with pos := e.pos.below lines }

@[simp] theorem LexError.cause_below (lines : Nat) (e : LexError) :
    (e.below lines).cause = e.cause := rfl

theorem Pos.after_below (lines : Nat) (p : Pos) (c : Char) :
    (p.below lines).after c = (p.after c).below lines := by
  unfold after
  split
  · exact congrArg (Pos.mk · 1) (Int.add_right_comm p.line lines 1)
  · rfl

/-- What is spelled out has no line feeds, line feeds apart. -/
theorem Plain.notMem_feed {kind : TokenKind} {text : String} (plain : Plain (kind, text))
    (other : kind ≠ .newline) : '\n' ∉ text.toList := by
  obtain ⟨spelled, noString, inside⟩ := plain
  have digits {z : List Char} (all : ∀ c ∈ z, Decimal.isDigit c) : '\n' ∉ z :=
    fun mem => nomatch all '\n' mem
  cases kind with
  | int => exact digits spelled.2
  | float =>
    obtain ⟨whole, fraction, shape, -, front, back⟩ := spelled
    rw [shape, List.mem_append, List.mem_cons]
    rintro (mem | same | mem)
    · exact digits front mem
    · cases same
    · exact digits back mem
  | string => exact absurd rfl noString
  | bool => rcases spelled with rfl | rfl <;> decide
  | ident =>
    obtain ⟨c, cs, shape, letter, letters, -⟩ := spelled
    rw [shape, List.mem_cons]
    rintro (same | mem)
    · rw [← same] at letter
      cases letter
    · cases letters '\n' mem
  | op =>
    have all : ∀ s ∈ operatorSpellings, '\n' ∉ s.toList := by decide
    exact all text spelled
  | newline => exact absurd rfl other
  | eof => exact absurd rfl inside
  | keyword k =>
    have same : text = k.spelling := spelled
    rw [same]
    cases k <;> decide
  | other tag => exact absurd spelled id

namespace Lexer

variable {c q : Char} {cs a w x y : List Char} {l : Lexeme} {pos : Pos} {lines : Nat}

/-- Scanning does not notice that a text starts further down. -/
theorem scan_below (lines skip : Nat) (pos : Pos) (cs : List Char) :
    scan skip (pos.below lines) cs =
      match scan skip pos cs with
      | .ok ts => .ok (ts.map (Token.below lines))
      | .error e => .error (e.below lines) := by
  fun_induction scan skip pos cs with
  | case1 skip pos => cases skip <;> rfl
  | case2 skip pos c cs ih =>
    rw [scan, Pos.after_below]
    exact ih
  | case3 pos c cs none =>
    rw [scan, none]
    rfl
  | case4 pos c cs n skipped ih =>
    rw [scan, skipped, Pos.after_below]
    exact ih
  | case5 pos c cs kind text n found ts rest ih =>
    rw [rest] at ih
    rw [scan, found, Pos.after_below]
    dsimp only
    rw [ih]
    rfl
  | case6 pos c cs kind text n found e rest ih =>
    rw [rest] at ih
    rw [scan, found, Pos.after_below]
    dsimp only
    rw [ih]

/-! ## Line starts -/

/-- What follows the text starts a line: the text is empty or ends with a line feed. -/
def EndsLine (cs : List Char) : Prop := ∀ c ∈ cs.getLast?, c = '\n'

theorem EndsLine.of_append (ends : EndsLine (x ++ y)) : EndsLine y := by
  intro c last
  refine ends c ?_
  rw [List.getLast?_append, last]
  rfl

theorem EndsLine.append (first : EndsLine x) (second : EndsLine y) : EndsLine (x ++ y) := by
  intro c last
  rw [List.getLast?_append] at last
  cases behind : y.getLast? with
  | none => rw [behind] at last; exact first c last
  | some d => rw [behind] at last; exact second c (behind.trans last)

theorem EndsLine.drop (ends : EndsLine cs) (n : Nat) : EndsLine (cs.drop n) := by
  rw [← List.take_append_drop n cs] at ends
  exact ends.of_append

theorem EndsLine.eq_nil_or_concat (ends : EndsLine cs) : cs = [] ∨ ∃ x, cs = x ++ ['\n'] := by
  cases last : cs.getLast? with
  | none => exact .inl (List.getLast?_eq_none_iff.1 last)
  | some c =>
    obtain ⟨x, rfl⟩ := List.getLast?_eq_some_iff.1 last
    rw [ends c last]
    exact .inr ⟨x, rfl⟩

/-- Behind a text that ends with a line feed there is the first column, as many lines down as the
text has line feeds. -/
theorem EndsLine.afterAll (ends : EndsLine cs) :
    Pos.start.afterAll cs = Pos.start.below (cs.count '\n') := by
  have place := Pos.isAt_afterAll_take (Nat.le_refl cs.length)
  rw [List.take_length] at place
  have line := place.line
  rw [List.take_length] at line
  have col : (Pos.start.afterAll cs).col = 1 := by
    rcases ends.eq_nil_or_concat with rfl | ⟨x, rfl⟩
    · rfl
    · rw [Pos.afterAll_append]
      rfl
  generalize Pos.start.afterAll cs = p at line col
  obtain ⟨line', col'⟩ := p
  dsimp only at line col
  rw [line, col]
  rfl

/-! ## Lexemes before a line start -/

/-- Every string that scanning meets in a text ends at a quote that no backslash protects. -/
inductive ClosesStrings : List Char → Prop
  | nil : ClosesStrings []
  | stuck {c : Char} {cs : List Char} (fails : lexeme? c cs = none) : ClosesStrings (c :: cs)
  | step {c : Char} {cs : List Char} {l : Lexeme} (found : lexeme? c cs = some l)
      (closed : isQuote c → Bare c cs (l.length - 2))
      (later : ClosesStrings (cs.drop (l.length - 1))) : ClosesStrings (c :: cs)

/-- A string that ends at a bare quote ends there in every longer text. -/
theorem string?_append (quote : isQuote q) (found : string? q cs = some l)
    (closed : Bare q cs (l.length - 2)) (y : List Char) : string? q (cs ++ y) = some l := by
  have notBackslash := ne_backslash_of_isQuote quote
  obtain ⟨n, ended, rfl⟩ := Option.map_eq_some_iff.1 found
  have below := bodyLength?_lt notBackslash ended
  have bare : firstBare? q cs = some n := by
    unfold bodyLength? at ended
    cases first : firstBare? q cs with
    | some m => rw [first] at ended; exact ended
    | none => exact absurd closed ((firstBare?_eq_none_iff notBackslash).1 first n)
  have bare' : firstBare? q (cs ++ y) = some n := by
    refine firstBare?_splice notBackslash (y := []) y ?_ below
    rw [List.append_nil]
    exact bare
  rw [string?, bodyLength?, bare', Option.map_some,
    List.take_append_of_le_length (Nat.le_of_lt below)]

/-- A comment that has a line feed ends with it in every longer text. -/
theorem comment_append (feed : '\n' ∈ cs) (y : List Char) : comment (cs ++ y) = comment cs := by
  obtain ⟨body, r, rfl, oneLine⟩ := List.eq_append_cons_of_mem feed
  rw [List.append_assoc, List.cons_append, comment_feed body oneLine, comment_feed body oneLine]

/-- A lexeme of a text that ends with a line feed is the same in every longer text, unless it is a
string that no bare quote closes. -/
theorem lexeme?_append (found : lexeme? c cs = some l) (ends : EndsLine (c :: cs))
    (closed : isQuote c → Bare c cs (l.length - 2)) (y : List Char) :
    lexeme? c (cs ++ y) = some l := by
  by_cases quote : isQuote c
  · rw [lexeme?_of_isQuote quote] at found ⊢
    exact string?_append quote found (closed quote) y
  have ends' : EndsLine cs := ends.drop 1
  rcases ends'.eq_nil_or_concat with rfl | ⟨x, rfl⟩
  · have feed : c = '\n' := ends c rfl
    subst feed
    cases found
    cases y <;> rfl
  -- The text is cut before its line feed, which is apart from the lexemes before it.
  have apart : Apart ('\n' :: y) := by
    intro d first
    cases first
    exact .inr rfl
  have splice (inside : l.length ≤ (c :: x).length) : lexeme? c (x ++ ['\n'] ++ y) = some l := by
    rw [List.append_assoc, List.singleton_append]
    refine lexeme?_splice apart (fun quote' => absurd quote' quote) found inside fun _ => ?_
    rw [← List.cons_append, List.length_append]
    exact Nat.lt_succ_of_le inside
  cases finds_of_lexeme? found with
  | blank space => exact splice (Nat.succ_pos _)
  | comment slash second =>
    have second' : (x ++ ['\n'] ++ y).head? = some '/' := by
      rw [List.head?_append, second]
      rfl
    have feed : '\n' ∈ c :: (x ++ ['\n']) := by simp
    rw [lexeme?_of_comment slash second', ← List.cons_append, comment_append feed]
  | @spelled kind text front plain =>
    by_cases alone : kind = .newline
    · -- A line feed is a token of one character.
      subst alone
      have same : String.ofList text = "\n" := plain.1
      have single : text = ['\n'] := by
        rw [← String.toList_ofList (l := text), same]
        rfl
      rw [single] at splice ⊢
      exact splice (Nat.succ_pos _)
    · have none := plain.notMem_feed alone
      rw [String.toList_ofList] at none
      refine splice (Nat.le_of_not_lt fun beyond => none ?_)
      have whole : text = c :: x ++ ['\n'] := by
        refine front.eq_of_length (Nat.le_antisymm front.length_le ?_)
        rw [← List.cons_append, List.length_append]
        exact beyond
      rw [whole]
      exact List.mem_append_right _ List.mem_cons_self
  | string quote' => exact absurd quote' quote

/-! ## Scanning behind a line start -/

/-- Behind a text that ends with a line feed scanning goes on as at the start of a text. -/
theorem scan_append {ts : List Token} (closes : ClosesStrings cs) (ends : EndsLine cs)
    (scanned : scan 0 pos cs = .ok ts) :
    ∃ body, ts = body ++ [⟨.eof, "", pos.afterAll cs⟩] ∧
      ∀ y, scan 0 pos (cs ++ y) = (scan 0 (pos.afterAll cs) y).map (body ++ ·) := by
  induction closes generalizing pos ts with
  | nil =>
    cases scanned
    refine ⟨[], rfl, fun y => ?_⟩
    rw [List.nil_append, Pos.afterAll_nil]
    cases scan 0 pos y <;> rfl
  | stuck fails =>
    rw [scan, fails] at scanned
    cases scanned
  | @step c cs l found closed later ih =>
    have within : l.length - 1 ≤ cs.length := by
      have within := length_le_of_lexeme? found
      rw [List.length_cons] at within
      omega
    have place : ((pos.after c).afterAll (cs.take (l.length - 1))).afterAll
        (cs.drop (l.length - 1)) = pos.afterAll (c :: cs) := by
      rw [← Pos.afterAll_append, List.take_append_drop, Pos.afterAll_cons]
    rw [scan_cons pos found] at scanned
    cases rest : scan 0 ((pos.after c).afterAll (cs.take (l.length - 1)))
        (cs.drop (l.length - 1)) with
    | error e => rw [rest] at scanned; cases scanned
    | ok us =>
      rw [rest] at scanned
      cases scanned
      obtain ⟨body, rfl, goesOn⟩ := ih (ends.drop (l.length - 1 + 1)) rest
      rw [place] at goesOn ⊢
      refine ⟨l.tokens pos ++ body, (List.append_assoc _ _ _).symm, fun y => ?_⟩
      rw [List.cons_append, scan_cons pos (lexeme?_append found ends closed y),
        List.take_append_of_le_length within, List.drop_append_of_le_length within, goesOn]
      cases scan 0 (pos.afterAll (c :: cs)) y with
      | error e => rfl
      | ok us => exact congrArg Except.ok (List.append_assoc _ _ _).symm

/-! ## Lines without statements -/

/-- Whole lines of blanks, or of blanks and a comment. -/
inductive IdleLines : List Char → Prop
  | nil : IdleLines []
  | blank {w cs : List Char} (space : ∀ c ∈ w, isSpace c) (more : IdleLines cs) :
      IdleLines (w ++ '\n' :: cs)
  | comment {w body cs : List Char} (space : ∀ c ∈ w, isSpace c) (oneLine : '\n' ∉ body)
      (more : IdleLines cs) : IdleLines (w ++ '/' :: '/' :: (body ++ '\n' :: cs))

theorem IdleLines.endsLine (idle : IdleLines cs) : EndsLine cs := by
  have behind {x y : List Char} (ends : EndsLine y) : EndsLine (x ++ '\n' :: y) := by
    have feed : EndsLine (x ++ ['\n']) := fun c last => by
      rw [List.getLast?_concat] at last
      exact (Option.some.inj last).symm
    rw [← List.singleton_append, ← List.append_assoc]
    exact feed.append ends
  induction idle with
  | nil => exact nofun
  | blank space more ih => exact behind ih
  | @comment w body cs space oneLine more ih =>
    have shape : w ++ '/' :: '/' :: (body ++ '\n' :: cs) =
        w ++ '/' :: '/' :: body ++ '\n' :: cs := by simp
    rw [shape]
    exact behind ih

theorem scan_blanks (space : ∀ c ∈ w, isSpace c) (pos : Pos) (y : List Char) :
    scan 0 pos (w ++ y) = scan 0 (pos.afterAll w) y := by
  induction w generalizing pos with
  | nil => rfl
  | cons c w ih =>
    obtain ⟨blank, space⟩ := List.forall_mem_cons.1 space
    have found : lexeme? c (w ++ y) = some ⟨none, 1⟩ := by
      unfold lexeme?
      rw [if_pos blank]
    rw [List.cons_append, scan, found, Pos.afterAll_cons]
    exact ih space _

theorem scan_comment {body : List Char} (oneLine : '\n' ∉ body) (pos : Pos) (y : List Char) :
    scan 0 pos ('/' :: '/' :: (body ++ '\n' :: y)) =
      scan 0 (pos.afterAll ('/' :: '/' :: (body ++ ['\n']))) y := by
  have found : lexeme? '/' ('/' :: (body ++ '\n' :: y)) = some ⟨none, body.length + 3⟩ := by
    rw [lexeme?_of_comment rfl rfl]
    exact congrArg some (comment_feed ('/' :: '/' :: body) (by simpa using oneLine) y)
  have shape : '/' :: (body ++ '\n' :: y) = '/' :: (body ++ ['\n']) ++ y := by simp
  have size : ('/' :: (body ++ ['\n'])).length = body.length + 3 - 1 := by simp
  rw [scan, found, Pos.afterAll_cons]
  dsimp only
  rw [scan_eq_drop, shape, List.take_left' size, List.drop_left' size]

/-- Lines without statements leave line feeds at most. -/
theorem scan_idleLines (idle : IdleLines cs) (pos : Pos) :
    ∃ feeds : List Token, (∀ t ∈ feeds, t.kind = .newline) ∧
      ∀ y, scan 0 pos (cs ++ y) = (scan 0 (pos.afterAll cs) y).map (feeds ++ ·) := by
  induction idle generalizing pos with
  | nil =>
    refine ⟨[], List.forall_mem_nil _, fun y => ?_⟩
    rw [List.nil_append, Pos.afterAll_nil]
    cases scan 0 pos y <;> rfl
  | @blank w cs space more ih =>
    obtain ⟨feeds, kinds, goesOn⟩ := ih ((pos.afterAll w).after '\n')
    refine ⟨⟨.newline, "\n", pos.afterAll w⟩ :: feeds, List.forall_mem_cons.2 ⟨rfl, kinds⟩,
      fun y => ?_⟩
    rw [List.append_assoc, scan_blanks space, List.cons_append, scan_feed, goesOn,
      Pos.afterAll_append, Pos.afterAll_cons]
    cases scan 0 (((pos.afterAll w).after '\n').afterAll cs) y <;> rfl
  | @comment w body cs space oneLine more ih =>
    obtain ⟨feeds, kinds, goesOn⟩ :=
      ih ((pos.afterAll w).afterAll ('/' :: '/' :: (body ++ ['\n'])))
    refine ⟨feeds, kinds, fun y => ?_⟩
    have shape : '/' :: '/' :: (body ++ '\n' :: cs) = '/' :: '/' :: (body ++ ['\n']) ++ cs := by
      simp
    rw [List.append_assoc, scan_blanks space, List.cons_append, List.cons_append,
      List.append_assoc, List.cons_append, scan_comment oneLine, goesOn, shape,
      Pos.afterAll_append, Pos.afterAll_append]

end Lexer

/-! ## Whole texts -/

open Lexer in
/-- A text can be cut at the start of a line, if the strings before the cut are closed.  The tokens
before the cut are those of the first part without its end of input, and the tokens behind it, or
the error, are those of the second part, further down by the lines before the cut.  Lines without
statements at the cut add line feeds at most, and move what is behind them further down. -/
theorem tokenize_append {a : String} {ts : List Token} (scanned : tokenize a = .ok ts)
    (ends : EndsLine a.toList) (closes : ClosesStrings a.toList) :
    ∃ body last, ts = body ++ [⟨.eof, "", last⟩] ∧
      (∀ b, tokenize (a ++ b) =
        match tokenize b with
        | .ok us => .ok (body ++ us.map (Token.below (a.toList.count '\n')))
        | .error e => .error (e.below (a.toList.count '\n'))) ∧
      ∀ c, IdleLines c.toList → ∃ feeds : List Token, (∀ t ∈ feeds, t.kind = .newline) ∧
        ∀ b, tokenize (a ++ c ++ b) =
          match tokenize b with
          | .ok us => .ok (body ++ feeds ++ us.map (Token.below ((a ++ c).toList.count '\n')))
          | .error e => .error (e.below ((a ++ c).toList.count '\n')) := by
  obtain ⟨body, shape, goesOn⟩ := scan_append closes ends scanned
  refine ⟨body, _, shape, fun b => ?_, fun c idle => ?_⟩
  · unfold tokenize
    rw [String.toList_append, goesOn, ends.afterAll, scan_below]
    cases scan 0 Pos.start b.toList <;> rfl
  · obtain ⟨feeds, kinds, goesOn'⟩ := scan_idleLines idle (Pos.start.afterAll a.toList)
    refine ⟨feeds, kinds, fun b => ?_⟩
    unfold tokenize
    rw [String.toList_append, String.toList_append, List.append_assoc, goesOn, goesOn',
      ← Pos.afterAll_append, (ends.append idle.endsLine).afterAll, scan_below]
    cases scan 0 Pos.start b.toList with
    | ok us => exact congrArg Except.ok (List.append_assoc body feeds _).symm
    | error e => rfl

open Lexer in
/-- A string with a protected quote and a line feed in it, and a comment with a quote.  An empty
line and a line with another such comment may follow. -/
theorem tokenize_append_protected_quote :
    ∃ ts, tokenize "INPUT 'a\\'\n' // it's\n" = .ok ts ∧
      EndsLine "INPUT 'a\\'\n' // it's\n".toList ∧
      ClosesStrings "INPUT 'a\\'\n' // it's\n".toList ∧
      IdleLines "\n  // it's\n".toList ∧
      ∃ body last, ts = body ++ [⟨.eof, "", last⟩] ∧
        (∀ b, tokenize ("INPUT 'a\\'\n' // it's\n" ++ b) =
          match tokenize b with
          | .ok us => .ok (body ++ us.map (Token.below 2))
          | .error e => .error (e.below 2)) ∧
        ∃ feeds : List Token, (∀ t ∈ feeds, t.kind = .newline) ∧
          ∀ b, tokenize ("INPUT 'a\\'\n' // it's\n" ++ "\n  // it's\n" ++ b) =
            match tokenize b with
            | .ok us => .ok (body ++ feeds ++ us.map (Token.below 4))
            | .error e => .error (e.below 4) := by
  have ends : EndsLine "INPUT 'a\\'\n' // it's\n".toList :=
    fun c last => (Option.some.inj last).symm
  have bare : Bare (Char.ofNat 0x27) "a\\'\n' // it's\n".toList 4 :=
    ⟨.single (by decide) (.pair _ (.single (by decide) (.start _))), rfl⟩
  have closes : ClosesStrings "INPUT 'a\\'\n' // it's\n".toList :=
    .step (l := ⟨some (.keyword .inputWord, "INPUT"), 5⟩) rfl nofun
      (.step (l := ⟨none, 1⟩) rfl nofun
        (.step (l := ⟨some (.string, "a'\n"), 6⟩) rfl (fun _ => bare)
          (.step (l := ⟨none, 1⟩) rfl nofun
            (.step (l := ⟨none, 8⟩) rfl nofun .nil))))
  have space : ∀ c ∈ [' ', ' '], isSpace c :=
    List.forall_mem_cons.2 ⟨rfl, List.forall_mem_singleton.2 rfl⟩
  have idle : IdleLines "\n  // it's\n".toList :=
    .blank (w := []) (List.forall_mem_nil _)
      (@IdleLines.comment [' ', ' '] " it's".toList [] space (by decide) .nil)
  have scanned : tokenize "INPUT 'a\\'\n' // it's\n" =
      .ok ([⟨.keyword .inputWord, "INPUT", ⟨1, 1⟩⟩, ⟨.string, "a'\n", ⟨1, 7⟩⟩] ++
        [⟨.eof, "", ⟨3, 1⟩⟩]) := by
    decide +kernel
  obtain ⟨body, last, shape, cut, idleCut⟩ := tokenize_append scanned ends closes
  exact ⟨_, scanned, ends, closes, idle, body, last, shape, cut, idleCut _ idle⟩

end GotoBasic
