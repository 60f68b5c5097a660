import GotoBasic.Proofs.Token.Splice
import Mathlib.Data.List.TakeWhile

/-!
# Writing tokens

Every spelling without quotes is a lexeme of its own (`Lexer.lexeme?_of_plain`).  Spellings are
written down with blanks between them (`Lexer.written`).
-/

namespace GotoBasic

namespace Lexer

open Decimal (isDigit)

/-! ## Letters and digits -/

/-- A letter or a digit; such a character belongs to no rule but that of words or of numbers. -/
def isPlainChar (c : Char) : Bool := isLetter c || isDigit c

/-- Letters and digits are no blanks, so a rule for the latter does not take them. -/
theorem isSpace_eq_false {c : Char} (plain : isPlainChar c) : isSpace c = false := by
  refine Bool.eq_false_iff.2 fun space => ?_
  simp only [isSpace, Bool.or_eq_true, beq_iff_eq] at space
  rcases space with (rfl | rfl) | rfl <;> revert plain <;> decide

theorem isOperatorChar_eq_false {c : Char} (plain : isPlainChar c) : isOperatorChar c = false := by
  refine Bool.eq_false_iff.2 fun operator => ?_
  simp only [isOperatorChar, List.contains_iff_mem] at operator
  have none : "+-*/|<>!=():".toList.all (fun d => !isPlainChar d) := by decide
  have outside := List.all_eq_true.1 none c operator
  rw [plain] at outside
  cases outside

theorem isOperatorPair_eq_false {c : Char} (plain : isPlainChar c) (d : Char) :
    isOperatorPair c d = false := by
  refine Bool.eq_false_iff.2 fun pair => ?_
  simp only [isOperatorPair, Bool.or_eq_true, Bool.and_eq_true, beq_iff_eq] at pair
  rcases pair with (((⟨rfl, -⟩ | ⟨rfl, -⟩) | ⟨rfl, -⟩) | ⟨rfl, -⟩) | ⟨rfl, -⟩ <;>
    revert plain <;> decide

/-- The three quotes. -/
theorem eq_ofNat_of_isQuote {c : Char} (quote : isQuote c) :
    c = Char.ofNat 0x22 ∨ c = Char.ofNat 0x27 ∨ c = Char.ofNat 0x60 := by
  have same (n : Nat) (h : c.toNat = n) : c = Char.ofNat n := by rw [← h, Char.ofNat_toNat]
  simp only [isQuote, Bool.or_eq_true, beq_iff_eq] at quote
  rcases quote with (code | code) | code
  · exact .inl (same _ code)
  · exact .inr (.inl (same _ code))
  · exact .inr (.inr (same _ code))

theorem isQuote_eq_false {c : Char} (plain : isPlainChar c) : isQuote c = false := by
  refine Bool.eq_false_iff.2 fun quote => ?_
  rcases eq_ofNat_of_isQuote quote with rfl | rfl | rfl <;> revert plain <;> decide

/-- A digit begins a number. -/
theorem lexeme?_of_isDigit {c : Char} (digit : isDigit c) (cs : List Char) :
    lexeme? c cs = some (number (c :: cs)) := by
  have plain : isPlainChar c := by simp [isPlainChar, digit]
  have pair : ¬ cs.head?.any (isOperatorPair c) := by
    cases cs with
    | nil => simp
    | cons d cs => simp [isOperatorPair_eq_false plain d]
  unfold lexeme?
  dsimp only
  rw [if_neg (by simp [isSpace_eq_false plain]), if_neg (by rintro ⟨rfl, -⟩; cases digit),
    if_neg pair, if_neg (by simp [isOperatorChar_eq_false plain]), if_pos digit]

/-- A letter begins a word. -/
theorem lexeme?_of_isLetter {c : Char} (letter : isLetter c) (cs : List Char) :
    lexeme? c cs = some (word (c :: cs)) := by
  have plain : isPlainChar c := by simp [isPlainChar, letter]
  have pair : ¬ cs.head?.any (isOperatorPair c) := by
    cases cs with
    | nil => simp
    | cons d cs => simp [isOperatorPair_eq_false plain d]
  unfold lexeme?
  dsimp only
  rw [if_neg (by simp [isSpace_eq_false plain]), if_neg (by rintro ⟨rfl, -⟩; cases letter),
    if_neg pair, if_neg (by simp [isOperatorChar_eq_false plain]),
    if_neg (by simp [isDigit_eq_false_of_isLetter letter]),
    if_neg (by simp [isQuote_eq_false plain]), if_neg (by rintro ⟨rfl, -⟩; cases letter),
    if_neg (by rintro rfl; cases letter), if_neg (by rintro rfl; cases letter), if_pos letter]

/-- At a quote the rule of strings decides. -/
theorem lexeme?_of_isQuote {c : Char} (quote : isQuote c) (cs : List Char) :
    lexeme? c cs = string? c cs := by
  rcases eq_ofNat_of_isQuote quote with rfl | rfl | rfl <;> cases cs <;> rfl

/-! ## Spellings -/

/-- A token whose spelling is its text takes as many characters as the text has. -/
theorem spelled_eq {kind : TokenKind} {text : String} {c : Char} {cs : List Char}
    (shape : text.toList = c :: cs) :
    Lexeme.spelled kind (c :: cs) = ⟨some (kind, text), cs.length + 1⟩ := by
  rw [Lexeme.spelled, ← shape, String.ofList_toList, shape, List.length_cons]

/-- A spelling without quotes, taken by itself, is one lexeme. -/
theorem lexeme?_of_plain {kind : TokenKind} {text : String} (plain : Plain (kind, text)) :
    ∃ c cs, text.toList = c :: cs ∧
      lexeme? c cs = some ⟨some (kind, text), cs.length + 1⟩ := by
  obtain ⟨spelled, notString, notEof⟩ := plain
  dsimp only at spelled notString notEof
  cases kind with
  | int =>
    obtain ⟨nonempty, digits⟩ := spelled
    cases shape : text.toList with
    | nil => exact absurd shape nonempty
    | cons c cs =>
      rw [shape] at digits
      refine ⟨c, cs, rfl, ?_⟩
      rw [lexeme?_of_isDigit (digits c List.mem_cons_self), number,
        List.takeWhile_eq_self_iff.2 digits, List.dropWhile_eq_nil_iff.2 digits]
      exact congrArg some (spelled_eq shape)
  | float =>
    obtain ⟨whole, fraction, shape, nonempty, digits, digits'⟩ := spelled
    cases whole with
    | nil => exact absurd rfl nonempty
    | cons c whole =>
      have run : (c :: whole ++ '.' :: fraction).takeWhile isDigit = c :: whole := by
        rw [List.takeWhile_append_of_pos digits]
        simp [isDigit]
      have point : (c :: whole ++ '.' :: fraction).dropWhile isDigit = '.' :: fraction := by
        rw [List.dropWhile_append_of_pos digits]
        simp [isDigit]
      refine ⟨c, whole ++ '.' :: fraction, shape, ?_⟩
      rw [lexeme?_of_isDigit (digits c List.mem_cons_self), number, ← List.cons_append, run,
        point]
      change some (Lexeme.spelled .float (c :: whole ++ '.' :: fraction.takeWhile isDigit)) = _
      rw [List.takeWhile_eq_self_iff.2 digits']
      exact congrArg some (spelled_eq shape)
  | string => exact absurd rfl notString
  | bool => rcases spelled with rfl | rfl <;> exact ⟨_, _, rfl, rfl⟩
  | ident =>
    obtain ⟨c, cs, shape, letter, inside, free⟩ := spelled
    have whole : (c :: cs).takeWhile isWordChar = c :: cs := by
      refine List.takeWhile_eq_self_iff.2 (List.forall_mem_cons.2 ⟨?_, inside⟩)
      simp [isWordChar, letter]
    refine ⟨c, cs, shape, ?_⟩
    rw [lexeme?_of_isLetter letter, word, whole, ← shape, String.ofList_toList, free, shape]
    exact congrArg some (spelled_eq shape)
  | op =>
    simp only [TokenKind.Spelled, operatorSpellings, List.mem_cons, List.not_mem_nil, or_false]
      at spelled
    rcases spelled with rfl | rfl | rfl | rfl | rfl | rfl | rfl | rfl | rfl | rfl | rfl | rfl |
      rfl | rfl | rfl | rfl | rfl | rfl <;> exact ⟨_, _, rfl, rfl⟩
  | newline => cases spelled; exact ⟨_, _, rfl, rfl⟩
  | eof => exact absurd rfl notEof
  | keyword k => cases spelled; cases k <;> exact ⟨_, _, rfl, rfl⟩
  | other name => exact spelled.elim

theorem unquoted_of_all {cs : List Char} (all : cs.all fun c => !isQuote c) :
    ∀ c ∈ cs, isQuote c = false := by
  intro c mem
  simpa using List.all_eq_true.1 all c mem

/-- Only strings have quotes in their spellings. -/
theorem isQuote_eq_false_of_plain {kind : TokenKind} {text : String} (plain : Plain (kind, text)) :
    ∀ c ∈ text.toList, isQuote c = false := by
  have digits (cs : List Char) (all : ∀ c ∈ cs, isDigit c) : ∀ c ∈ cs, isQuote c = false :=
    fun c mem => isQuote_eq_false (by simp [isPlainChar, all c mem])
  obtain ⟨spelled, notString, notEof⟩ := plain
  dsimp only at spelled notString notEof
  cases kind with
  | int => exact digits _ spelled.2
  | float =>
    obtain ⟨whole, fraction, shape, -, all, all'⟩ := spelled
    rw [shape]
    intro c mem
    rcases List.mem_append.1 mem with mem | mem
    · exact digits whole all c mem
    · rcases List.mem_cons.1 mem with rfl | mem
      · rfl
      · exact digits fraction all' c mem
  | string => exact absurd rfl notString
  | bool => rcases spelled with rfl | rfl <;> exact unquoted_of_all (by decide)
  | ident =>
    obtain ⟨d, ds, shape, letter, all, -⟩ := spelled
    rw [shape]
    refine List.forall_mem_cons.2 ⟨isQuote_eq_false (by simp [isPlainChar, letter]), ?_⟩
    intro c mem
    have wordChar := all c mem
    simp only [isWordChar, Bool.or_eq_true, beq_iff_eq] at wordChar
    rcases wordChar with plain | rfl
    · exact isQuote_eq_false (by simpa [isPlainChar] using plain)
    · rfl
  | op =>
    have none : operatorSpellings.all (fun s => s.toList.all fun c => !isQuote c) := by decide
    exact unquoted_of_all (List.all_eq_true.1 none text spelled)
  | newline => cases spelled; exact unquoted_of_all (by decide)
  | eof => exact absurd rfl notEof
  | keyword k => cases spelled; cases k <;> exact unquoted_of_all (by decide)
  | other name => exact spelled.elim

/-! ## Texts -/

/-- The text in which spellings stand one behind the other, with blanks around them. -/
def written (w : List (TokenKind × String)) : List Char :=
  w.foldr (fun x text => ' ' :: (x.2.toList ++ text)) [' ']

/-- A text that is written with a blank before each token can stand behind any token. -/
theorem written_spaced {w : List (TokenKind × String)} (plain : ∀ x ∈ w, Plain x) :
    Spaced (written w) := by
  induction w with
  | nil => exact ⟨rfl, unquoted_of_all (by decide)⟩
  | cons x w ih =>
    obtain ⟨first, rest⟩ := List.forall_mem_cons.1 plain
    refine ⟨rfl, List.forall_mem_cons.2 ⟨rfl, fun c mem => ?_⟩⟩
    rcases List.mem_append.1 mem with mem | mem
    · exact isQuote_eq_false_of_plain first c mem
    · exact (ih rest).unquoted c mem

end Lexer

end GotoBasic
