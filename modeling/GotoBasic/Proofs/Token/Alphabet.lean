import GotoBasic.Proofs.Token.Layout

/-!
# The alphabet of tokens

A text is scanned to tokens that are spelled as their kinds demand, with the one end of input behind
them.  Every list of such tokens comes from a text: it is enough to write them down one behind the
other with single blanks between them, and every string between quotes of any kind
(`tokenize_alphabet`).
-/

namespace GotoBasic

namespace Lexer

/-- Tokens with single blanks between them, each with the quote that it takes if it is a string. -/
def spacedOut (w : List (Char × TokenKind × String)) : List Char :=
  [' '].intercalate (w.map fun x => spellOut x.1 x.2)

variable {w : List (Char × TokenKind × String)}

/-- Tokens that are written so are laid out. -/
theorem lays_spacedOut (writable : ∀ x ∈ w, isQuote x.1 ∧ Writable x.2) :
    Lays (w.map Prod.snd) (spacedOut w) := by
  induction w with
  | nil => exact .nil
  | cons x w ih =>
    rcases List.forall_mem_cons.1 writable with ⟨⟨quote, first⟩, rest⟩
    have writes := writes_spellOut quote first
    cases w with
    | nil =>
      have alone : spacedOut [x] = spellOut x.1 x.2 ++ [] := by simp [spacedOut]
      rw [alone]
      exact .token writes (fun c head => nomatch head) .nil
    | cons y w =>
      have more : spacedOut (x :: y :: w) = spellOut x.1 x.2 ++ ' ' :: spacedOut (y :: w) := by
        simp [spacedOut, List.intercalate]
      rw [more]
      refine .token writes (fun c head => ?_) (.blank (ih rest))
      cases head
      exact .inl rfl

/-- Tokens of a text can be written. -/
theorem writable_of_wellFormed {t : Token} (wellFormed : t.WellFormed) (inside : t.kind ≠ .eof) :
    Writable t.spelling := by
  by_cases string : t.kind = .string
  · exact .inr string
  · exact .inl ⟨wellFormed, string, inside⟩

end Lexer

/-- The tokens of a text are spelled as their kinds demand, and behind them stands the one end of
input.  Any tokens that are spelled so are the tokens of the text in which they stand with single
blanks between them, whatever quotes the strings take. -/
theorem tokenize_alphabet :
    (∀ source ts, tokenize source = .ok ts →
      ∃ body last, ts = body ++ [⟨.eof, "", last⟩] ∧ ∀ t ∈ body, Lexer.Writable t.spelling) ∧
    ∀ w : List (Char × TokenKind × String),
      (∀ x ∈ w, Lexer.isQuote x.1 ∧ Lexer.Writable x.2) →
      ∃ ts last, tokenize (String.ofList (Lexer.spacedOut w)) = .ok (ts ++ [⟨.eof, "", last⟩]) ∧
        ts.map Token.spelling = w.map Prod.snd := by
  constructor
  · intro source ts scanned
    rcases Lexer.scan_wellFormed scanned with ⟨body, last, shape, wellFormed⟩
    refine ⟨body, last, shape, fun t mem => ?_⟩
    rcases wellFormed t mem with ⟨spelled, inside⟩
    exact Lexer.writable_of_wellFormed spelled inside
  · intro w writable
    unfold tokenize
    rw [String.toList_ofList]
    exact Lexer.scan_of_lays (Lexer.lays_spacedOut writable) Pos.start

/-- Two slashes that are no comment, a hyphen that is an operator and one in a name, and two strings
with their own quotes in them. -/
theorem tokenize_alphabet_adjacent :
    ∃ ts last, tokenize "IFS / / - a-1 'it\\'s' \"\\\"\\\\\" 3. \n IF" =
        .ok (ts ++ [⟨.eof, "", last⟩]) ∧
      ts.map Token.spelling = [(.ident, "IFS"), (.op, "/"), (.op, "/"), (.op, "-"), (.ident, "a-1"),
        (.string, "it's"), (.string, "\"\\"), (.float, "3."), (.newline, "\n"),
        (.keyword .ifWord, "IF")] ∧
      ∀ t ∈ ts, Lexer.Writable t.spelling := by
  let single := Char.ofNat 0x27
  let double := Char.ofNat 0x22
  let grave := Char.ofNat 0x60
  let w : List (Char × TokenKind × String) := [(grave, .ident, "IFS"), (grave, .op, "/"),
    (grave, .op, "/"), (grave, .op, "-"), (grave, .ident, "a-1"), (single, .string, "it's"),
    (double, .string, "\"\\"), (grave, .float, "3."), (grave, .newline, "\n"),
    (grave, .keyword .ifWord, "IF")]
  have name {s : String} {c : Char} {cs : List Char} (shape : s.toList = c :: cs)
      (letter : Lexer.isLetter c) (inside : cs.all Lexer.isWordChar)
      (free : Keyword.ofSpelling? s = none) : Lexer.Writable (.ident, s) :=
    .inl ⟨⟨c, cs, shape, letter, List.all_eq_true.1 inside, free⟩, by simp, by simp⟩
  have mark {s : String} (mem : s ∈ operatorSpellings) : Lexer.Writable (.op, s) :=
    .inl (plain_operator mem)
  have float : Lexer.Writable (.float, "3.") :=
    .inl ⟨⟨['3'], [], rfl, List.cons_ne_nil _ _, List.forall_mem_singleton.2 rfl,
      List.forall_mem_nil _⟩, by simp, by simp⟩
  have writable : ∀ x ∈ w, Lexer.isQuote x.1 ∧ Lexer.Writable x.2 := by
    simp only [w, List.forall_mem_cons]
    exact ⟨⟨rfl, name rfl rfl rfl (by decide)⟩, ⟨rfl, mark (by decide)⟩, ⟨rfl, mark (by decide)⟩,
      ⟨rfl, mark (by decide)⟩, ⟨rfl, name rfl rfl rfl (by decide)⟩, ⟨rfl, .inr rfl⟩,
      ⟨rfl, .inr rfl⟩, ⟨rfl, float⟩, ⟨rfl, .inl ⟨rfl, by simp, by simp⟩⟩,
      ⟨rfl, .inl (plain_word .ifWord)⟩, List.forall_mem_nil _⟩
  rcases tokenize_alphabet with ⟨spelled, written⟩
  rcases written w writable with ⟨ts, last, scanned, spelling⟩
  have text : String.ofList (Lexer.spacedOut w) =
      "IFS / / - a-1 'it\\'s' \"\\\"\\\\\" 3. \n IF" := by decide
  rw [text] at scanned
  rcases spelled _ _ scanned with ⟨body, last', shape, all⟩
  have same : ts = body := List.append_inj_left' shape rfl
  rw [← same] at all
  exact ⟨ts, last, scanned, spelling, all⟩

end GotoBasic
