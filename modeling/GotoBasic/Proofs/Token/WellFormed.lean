import GotoBasic.Parser
import GotoBasic.Token.Lexer

/-!
# Well-formed tokens

`Token.WellFormed` says which text a token of each kind can have when it comes from program text.
Scanning yields well-formed tokens only, and the one of kind `eof` stands last
(`tokenize_scanned`).  On well-formed tokens the text alone tells reserved words and operators
from all else, so that the parser's `Token.isSymbol` is a test of the kind
(`Token.WellFormed.isSymbol_spelling`, `Token.WellFormed.isSymbol_operator`).
-/

namespace GotoBasic

open Decimal (isDigit)
open Lexer (isLetter isWordChar)

/-! ## Digits and letters by their codes -/

theorem Decimal.isDigit_iff {c : Char} : isDigit c ↔ 48 ≤ c.toNat ∧ c.toNat ≤ 57 := by
  simp only [isDigit, Bool.and_eq_true, decide_eq_true_eq, Char.le_def, UInt32.le_iff_toNat_le]
  exact Iff.rfl

theorem Lexer.isLetter_iff {c : Char} :
    isLetter c ↔ 65 ≤ c.toNat ∧ c.toNat ≤ 90 ∨ 97 ≤ c.toNat ∧ c.toNat ≤ 122 := by
  simp only [isLetter, Bool.or_eq_true, Bool.and_eq_true, decide_eq_true_eq, Char.le_def,
    UInt32.le_iff_toNat_le]
  exact Iff.rfl

/-! ## The spellings of each kind -/

/-- The texts of operator tokens. -/
def operatorSpellings : List String :=
  ["++", "&&", "||", "==", "!=", "+", "-", "*", "/", "|", "<", ">", "!", "=", "(", ")", ":", "\\"]

/-- The texts that a token of a kind can have.  Any text is the content of some string. -/
def TokenKind.Spelled : TokenKind → String → Prop
  | .int, s => s.toList ≠ [] ∧ ∀ c ∈ s.toList, isDigit c
  | .float, s =>
    ∃ whole fraction : List Char, s.toList = whole ++ '.' :: fraction ∧ whole ≠ [] ∧
      (∀ c ∈ whole, isDigit c) ∧ ∀ c ∈ fraction, isDigit c
  | .string, _ => True
  | .bool, s => s = "#t" ∨ s = "#f"
  | .ident, s =>
    ∃ (c : Char) (cs : List Char), s.toList = c :: cs ∧ isLetter c ∧ (∀ d ∈ cs, isWordChar d) ∧
      Keyword.ofSpelling? s = none
  | .op, s => s ∈ operatorSpellings
  | .newline, s => s = "\n"
  | .eof, s => s = ""
  | .keyword k, s => s = k.spelling
  | .other _, _ => False

/-- A token whose text fits its kind. -/
def Token.WellFormed (t : Token) : Prop := t.kind.Spelled t.text

/-- The kind and the text of a token. -/
def Token.spelling (t : Token) : TokenKind × String := (t.kind, t.text)

/-- A kind and a text that can be written into a program without quotes. -/
def Plain (x : TokenKind × String) : Prop := x.1.Spelled x.2 ∧ x.1 ≠ .string ∧ x.1 ≠ .eof

theorem plain_word (k : Keyword) : Plain (.keyword k, k.spelling) := ⟨rfl, by simp, by simp⟩

theorem plain_operator {s : String} (mem : s ∈ operatorSpellings) : Plain (.op, s) :=
  ⟨mem, by simp, by simp⟩

/-! ## Symbols among well-formed tokens -/

theorem isDigit_eq_false_of_isLetter {c : Char} (letter : isLetter c) : isDigit c = false := by
  refine Bool.eq_false_iff.2 fun digit => ?_
  rw [Lexer.isLetter_iff] at letter
  rw [Decimal.isDigit_iff] at digit
  omega

/-- What the kind of a token says about the first character of its text. -/
def TokenKind.Starts : TokenKind → Char → Prop
  | .int, c => isDigit c
  | .float, c => isDigit c
  | .string, _ => True
  | .bool, c => c = '#'
  | .ident, c => isLetter c
  | .op, c => isLetter c = false ∧ isDigit c = false ∧ c ≠ '#' ∧ c ≠ '\n'
  | .newline, c => c = '\n'
  | .eof, _ => False
  | .keyword _, c => isLetter c
  | .other _, _ => False

/-- Reserved words start with a letter. -/
theorem Keyword.exists_letter_cons (k : Keyword) :
    ∃ (c : Char) (cs : List Char), k.spelling.toList = c :: cs ∧ isLetter c := by
  cases k <;> exact ⟨_, _, rfl, by decide⟩

theorem exists_cons_of_mem_operatorSpellings {s : String} (mem : s ∈ operatorSpellings) :
    ∃ (c : Char) (cs : List Char), s.toList = c :: cs ∧ TokenKind.op.Starts c := by
  simp only [operatorSpellings, List.mem_cons, List.not_mem_nil, or_false] at mem
  unfold TokenKind.Starts
  rcases mem with rfl | rfl | rfl | rfl | rfl | rfl | rfl | rfl | rfl | rfl | rfl | rfl | rfl |
    rfl | rfl | rfl | rfl | rfl <;> exact ⟨_, _, rfl, by decide⟩

theorem TokenKind.Spelled.starts {kind : TokenKind} {s : String} {c : Char} {cs : List Char}
    (spelled : kind.Spelled s) (shape : s.toList = c :: cs) : kind.Starts c := by
  cases kind with
  | int => exact spelled.2 c (by simp [shape])
  | float =>
    obtain ⟨whole, fraction, parts, nonempty, digits, -⟩ := spelled
    cases whole with
    | nil => exact absurd rfl nonempty
    | cons d ds =>
      rw [shape] at parts
      injection parts with same
      rw [same]
      exact digits d List.mem_cons_self
  | string => trivial
  | bool => rcases spelled with rfl | rfl <;> cases shape <;> rfl
  | ident =>
    obtain ⟨d, ds, parts, letter, -⟩ := spelled
    rw [shape] at parts
    injection parts with same
    rw [same]
    exact letter
  | op =>
    obtain ⟨d, ds, parts, starts⟩ := exists_cons_of_mem_operatorSpellings spelled
    rw [shape] at parts
    injection parts with same
    rw [same]
    exact starts
  | newline => cases spelled; cases shape; rfl
  | eof => cases spelled; cases shape
  | keyword k =>
    obtain ⟨d, ds, parts, letter⟩ := k.exists_letter_cons
    rw [show s = k.spelling from spelled, parts] at shape
    injection shape with same
    rw [← same]
    exact letter
  | other name => exact spelled.elim

namespace Token.WellFormed

variable {t : Token}

/-- Among well-formed tokens exactly the reserved word itself is taken for it. -/
theorem isSymbol_spelling (wf : t.WellFormed) (k : Keyword) :
    t.isSymbol k.spelling ↔ t.kind = .keyword k := by
  unfold Token.WellFormed at wf
  constructor
  · intro symbol
    simp only [Token.isSymbol, Bool.and_eq_true, beq_iff_eq, bne_iff_ne, ne_eq] at symbol
    obtain ⟨⟨text, notString⟩, notIdent⟩ := symbol
    obtain ⟨c, cs, shape, letter⟩ := k.exists_letter_cons
    have starts := wf.starts (by rw [text, shape])
    cases kind : t.kind with
    | keyword j =>
      rw [kind] at wf
      have same : j.spelling = k.spelling := wf.symm.trans text
      have found := Keyword.ofSpelling?_spelling j
      rw [same, Keyword.ofSpelling?_spelling] at found
      rw [Option.some.inj found]
    | string => exact absurd kind notString
    | ident => exact absurd kind notIdent
    | int =>
      rw [kind] at starts
      simp [TokenKind.Starts, isDigit_eq_false_of_isLetter letter] at starts
    | float =>
      rw [kind] at starts
      simp [TokenKind.Starts, isDigit_eq_false_of_isLetter letter] at starts
    | bool => rw [kind] at starts; cases starts; cases letter
    | newline => rw [kind] at starts; cases starts; cases letter
    | op => rw [kind] at starts; simp [TokenKind.Starts, letter] at starts
    | eof => rw [kind] at starts; exact starts.elim
    | other name => rw [kind] at starts; exact starts.elim
  · intro kind
    rw [kind] at wf
    simp [Token.isSymbol, kind, show t.text = k.spelling from wf]

/-- Among well-formed tokens only an operator is taken for an operator. -/
theorem isSymbol_operator {s : String} (wf : t.WellFormed) (mem : s ∈ operatorSpellings) :
    t.isSymbol s ↔ t.kind = .op ∧ t.text = s := by
  unfold Token.WellFormed at wf
  constructor
  · intro symbol
    simp only [Token.isSymbol, Bool.and_eq_true, beq_iff_eq, bne_iff_ne, ne_eq] at symbol
    obtain ⟨⟨text, notString⟩, notIdent⟩ := symbol
    refine ⟨?_, text⟩
    obtain ⟨c, cs, shape, notLetter, notDigit, notMark, notFeed⟩ :=
      exists_cons_of_mem_operatorSpellings mem
    have starts := wf.starts (by rw [text, shape])
    cases kind : t.kind with
    | op => rfl
    | string => exact absurd kind notString
    | ident => exact absurd kind notIdent
    | int => rw [kind] at starts; simp [TokenKind.Starts, notDigit] at starts
    | float => rw [kind] at starts; simp [TokenKind.Starts, notDigit] at starts
    | keyword k => rw [kind] at starts; simp [TokenKind.Starts, notLetter] at starts
    | bool => rw [kind] at starts; exact absurd starts notMark
    | newline => rw [kind] at starts; exact absurd starts notFeed
    | eof => rw [kind] at starts; exact starts.elim
    | other name => rw [kind] at starts; exact starts.elim
  · rintro ⟨kind, text⟩
    simp [Token.isSymbol, kind, text]

end Token.WellFormed

/-! ## Scanning yields well-formed tokens -/

namespace Lexer

theorem number_spelled {c : Char} (cs : List Char) (digit : isDigit c) :
    ∃ kind text, number (c :: cs) = .spelled kind text ∧ text <+: c :: cs ∧
      Plain (kind, String.ofList text) := by
  have digits (ds : List Char) : ∀ d ∈ ds.takeWhile isDigit, isDigit d :=
    List.all_eq_true.1 List.all_takeWhile
  have nonempty : (c :: cs).takeWhile isDigit ≠ [] := by simp [digit]
  have whole := List.takeWhile_append_dropWhile (p := isDigit) (l := c :: cs)
  unfold number
  split
  next rest shape =>
    have front : (c :: cs).takeWhile isDigit ++ '.' :: rest.takeWhile isDigit <+: c :: cs := by
      rw [shape] at whole
      have inner : '.' :: rest.takeWhile isDigit <+: '.' :: rest :=
        List.cons_prefix_cons.2 ⟨rfl, List.takeWhile_prefix isDigit⟩
      have outer := (List.prefix_append_right_inj ((c :: cs).takeWhile isDigit)).2 inner
      rw [whole] at outer
      exact outer
    exact ⟨_, _, rfl, front,
      ⟨_, _, String.toList_ofList, nonempty, digits _, digits _⟩, by simp, by simp⟩
  · refine ⟨_, _, rfl, List.takeWhile_prefix isDigit, ?_, by simp, by simp⟩
    rw [TokenKind.Spelled, String.toList_ofList]
    exact ⟨nonempty, digits _⟩

theorem word_spelled {c : Char} (cs : List Char) (letter : isLetter c) :
    ∃ kind text, word (c :: cs) = .spelled kind text ∧ text <+: c :: cs ∧
      Plain (kind, String.ofList text) := by
  have first : isWordChar c := by simp [isWordChar, letter]
  unfold word
  dsimp only
  split
  next k found =>
    have spelling := List.find?_some found
    exact ⟨_, _, rfl, List.takeWhile_prefix isWordChar, (eq_of_beq spelling).symm, by simp, by simp⟩
  next found =>
    refine ⟨_, _, rfl, List.takeWhile_prefix isWordChar,
      ⟨c, cs.takeWhile isWordChar, ?_, letter, List.all_eq_true.1 List.all_takeWhile, found⟩,
      by simp, by simp⟩
    rw [String.toList_ofList, List.takeWhile_cons_of_pos first]

/-- The operators of one character. -/
theorem isOperatorChar_spelled {c : Char} (operator : isOperatorChar c) :
    TokenKind.op.Spelled (String.ofList [c]) := by
  simp only [isOperatorChar, List.contains_iff_mem] at operator
  change c ∈ ['+', '-', '*', '/', '|', '<', '>', '!', '=', '(', ')', ':'] at operator
  simp only [List.mem_cons, List.not_mem_nil, or_false] at operator
  rcases operator with rfl | rfl | rfl | rfl | rfl | rfl | rfl | rfl | rfl | rfl | rfl | rfl <;>
    simp [TokenKind.Spelled, operatorSpellings]

theorem isOperatorPair_spelled {c d : Char} (operator : isOperatorPair c d) :
    TokenKind.op.Spelled (String.ofList [c, d]) := by
  simp only [isOperatorPair, Bool.or_eq_true, Bool.and_eq_true, beq_iff_eq] at operator
  rcases operator with (((⟨rfl, rfl⟩ | ⟨rfl, rfl⟩) | ⟨rfl, rfl⟩) | ⟨rfl, rfl⟩) | ⟨rfl, rfl⟩ <;>
    simp [TokenKind.Spelled, operatorSpellings]

/-- What the lexical rules find at the front of a text: something to be skipped, the spelling of
a token, or a string. -/
inductive Finds (c : Char) (cs : List Char) : Lexeme → Prop
  | blank (space : isSpace c) : Finds c cs ⟨none, 1⟩
  | comment (slash : c = '/') (second : cs.head? = some '/') : Finds c cs (comment (c :: cs))
  | spelled {kind : TokenKind} {text : List Char} (front : text <+: c :: cs)
      (plain : Plain (kind, String.ofList text)) : Finds c cs (.spelled kind text)
  | string {l : Lexeme} (quote : isQuote c) (found : string? c cs = some l) : Finds c cs l

theorem finds_of_lexeme? {c : Char} {cs : List Char} {l : Lexeme} (found : lexeme? c cs = some l) :
    Finds c cs l := by
  have single (kind : TokenKind) (plain : Plain (kind, String.ofList [c])) :
      Finds c cs (.spelled kind [c]) :=
    .spelled (List.cons_prefix_cons.2 ⟨rfl, List.nil_prefix⟩) plain
  have double {d : Char} {ds : List Char} (shape : cs = d :: ds) (kind : TokenKind)
      (plain : Plain (kind, String.ofList [c, d])) :
      Finds c cs (.spelled kind (c :: cs.take 1)) := by
    subst shape
    refine .spelled ?_ plain
    exact List.cons_prefix_cons.2 ⟨rfl, List.cons_prefix_cons.2 ⟨rfl, List.nil_prefix⟩⟩
  unfold lexeme? at found
  dsimp only at found
  split at found
  next space =>
    cases found
    exact .blank space
  split at found
  next slashes =>
    cases found
    exact .comment slashes.1 slashes.2
  split at found
  next pair =>
    cases found
    obtain ⟨d, second, pair⟩ := (Option.any_eq_true _ _).1 pair
    obtain ⟨ds, shape⟩ := List.head?_eq_some_iff.1 second
    exact double shape .op ⟨isOperatorPair_spelled pair, by simp, by simp⟩
  split at found
  next operator =>
    cases found
    exact single .op ⟨isOperatorChar_spelled operator, by simp, by simp⟩
  split at found
  next digit =>
    obtain ⟨kind, text, rule, front, plain⟩ := number_spelled cs digit
    rw [rule] at found
    cases found
    exact .spelled front plain
  split at found
  next quote => exact .string quote found
  split at found
  next truth =>
    cases found
    obtain ⟨rfl, second | second⟩ := truth
    · obtain ⟨ds, shape⟩ := List.head?_eq_some_iff.1 second
      exact double shape .bool ⟨.inl rfl, by simp, by simp⟩
    · obtain ⟨ds, shape⟩ := List.head?_eq_some_iff.1 second
      exact double shape .bool ⟨.inr rfl, by simp, by simp⟩
  split at found
  next feed =>
    cases found
    subst feed
    exact single .newline ⟨rfl, by simp, by simp⟩
  split at found
  next backslash =>
    cases found
    subst backslash
    exact single .op (plain_operator (by simp [operatorSpellings]))
  split at found
  next letter =>
    obtain ⟨kind, text, rule, front, plain⟩ := word_spelled cs letter
    rw [rule] at found
    cases found
    exact .spelled front plain
  · cases found

/-- What a lexical rule denotes is spelled as its kind demands; the end of input is denoted by
none. -/
theorem spelled_of_lexeme? {c : Char} {cs : List Char} {kind : TokenKind} {text : String} {n : Nat}
    (found : lexeme? c cs = some ⟨some (kind, text), n⟩) : kind.Spelled text ∧ kind ≠ .eof := by
  generalize rule : Lexeme.mk (some (kind, text)) n = l at found
  cases finds_of_lexeme? found with
  | blank space => cases rule
  | comment slash second => cases rule
  | spelled front plain =>
    cases rule
    exact ⟨plain.1, plain.2.2⟩
  | string quote found =>
    obtain ⟨m, -, same⟩ := Option.map_eq_some_iff.1 found
    rw [← same] at rule
    cases rule
    exact ⟨trivial, by decide⟩

/-- Scanned tokens are well-formed, and behind them stands the one end of input. -/
theorem scan_wellFormed {skip : Nat} {pos : Pos} {cs : List Char} {ts : List Token}
    (scanned : scan skip pos cs = .ok ts) :
    ∃ (body : List Token) (last : Pos), ts = body ++ [⟨.eof, "", last⟩] ∧
      ∀ t ∈ body, t.WellFormed ∧ t.kind ≠ .eof := by
  fun_induction scan skip pos cs generalizing ts with
  | case1 skip pos => cases scanned; exact ⟨[], pos, rfl, by simp⟩
  | case2 skip pos c cs ih => exact ih scanned
  | case3 pos c cs none => cases scanned
  | case4 pos c cs n skipped ih => exact ih scanned
  | case5 pos c cs kind text n found ts' rest ih =>
    cases scanned
    obtain ⟨body, last, shape, wellFormed⟩ := ih rest
    refine ⟨⟨kind, text, pos⟩ :: body, last, by rw [shape]; rfl, ?_⟩
    intro t mem
    rcases List.mem_cons.1 mem with rfl | later
    · exact spelled_of_lexeme? found
    · exact wellFormed t later
  | case6 pos c cs kind text n found e rest ih => cases scanned

end Lexer

/-! ## Streams of scanned tokens -/

namespace TokenStream

/-- All tokens of a stream, the end of input included. -/
def toTokens (s : TokenStream) : List Token := s.pending ++ [s.last]

/-- A stream of well-formed tokens in which the end of input stands where it belongs. -/
structure Scanned (s : TokenStream) : Prop where
  pending : ∀ t ∈ s.pending, t.WellFormed ∧ t.kind ≠ .eof
  last : s.last.WellFormed ∧ s.last.kind = .eof

theorem ofTokens_toTokens {s : TokenStream} (scanned : s.Scanned) : ofTokens s.toTokens = s := by
  obtain ⟨pending, last⟩ := s
  have inside (t : Token) (mem : t ∈ pending) : t.isEof = false := by
    simpa [Token.isEof] using (scanned.pending t mem).2
  have final : last.isEof = true := by simpa [Token.isEof] using scanned.last.2
  have before : (pending ++ [last]).takeWhile (fun t => !t.isEof) = pending := by
    rw [List.takeWhile_append_of_pos fun t mem => by simp [inside t mem]]
    simp [final]
  have found : (pending ++ [last]).find? Token.isEof = some last := by
    rw [List.find?_append, List.find?_eq_none.2 fun t mem => by simp [inside t mem]]
    simp [final]
  simp [ofTokens, toTokens, before, found]

end TokenStream

/-- The tokens of a text form a scanned stream. -/
theorem tokenize_scanned {source : String} {ts : List Token} (scanned : tokenize source = .ok ts) :
    ∃ s : TokenStream, s.Scanned ∧ s.toTokens = ts := by
  obtain ⟨body, last, rfl, wellFormed⟩ := Lexer.scan_wellFormed scanned
  exact ⟨⟨body, ⟨.eof, "", last⟩⟩, ⟨wellFormed, rfl, rfl⟩, rfl⟩

end GotoBasic
