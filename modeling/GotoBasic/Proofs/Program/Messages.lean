import GotoBasic.Proofs.Parser.Errors
import GotoBasic.Proofs.Program.Assembly
import GotoBasic.Proofs.Run.Faults
import GotoBasic.Proofs.Text.OneLine
import Mathlib.Data.List.Basic

/-!
# Messages are one line

Messages show parts of the program text.  Strings and other stretches of text stand between quotes,
where all is printable; what stands bare are numbers, and tokens that are spelled as their kinds
demand.  So every message has printable characters only, and is one line
(`error_messages_one_line`), whatever the text, the variables and the input are.
-/

namespace GotoBasic

open Text (Printable OneLine)

/-! ## What stands bare -/

/-- Digits are ten characters of ASCII. -/
theorem Decimal.isPrintable_of_isDigit {c : Char} (digit : isDigit c) : Text.isPrintable c := by
  rw [isDigit_iff] at digit
  exact Text.isPrintable_of_ascii (by omega) (by omega)

/-- Letters are the two ranges of ASCII. -/
theorem Lexer.isPrintable_of_isLetter {c : Char} (letter : isLetter c) : Text.isPrintable c := by
  rw [isLetter_iff] at letter
  exact Text.isPrintable_of_ascii (by omega) (by omega)

theorem Lexer.isPrintable_of_isWordChar {c : Char} (inside : isWordChar c) :
    Text.isPrintable c := by
  simp only [isWordChar, Bool.or_eq_true, beq_iff_eq] at inside
  rcases inside with (letter | digit) | rfl
  · exact isPrintable_of_isLetter letter
  · exact Decimal.isPrintable_of_isDigit digit
  · decide

/-- Only strings and line feeds need not be printable. -/
theorem TokenKind.Spelled.printable {kind : TokenKind} {s : String} (spelled : kind.Spelled s)
    (bare : kind ≠ .string) (visible : kind ≠ .newline) : Printable s := by
  cases kind with
  | int => exact fun c mem => Decimal.isPrintable_of_isDigit (spelled.2 c mem)
  | float =>
    obtain ⟨whole, fraction, shape, -, digits, digits'⟩ := spelled
    unfold Printable
    rw [shape]
    refine List.forall_mem_append.2 ⟨fun c mem => ?_,
      List.forall_mem_cons.2 ⟨by decide, fun c mem => ?_⟩⟩
    · exact Decimal.isPrintable_of_isDigit (digits c mem)
    · exact Decimal.isPrintable_of_isDigit (digits' c mem)
  | string => exact absurd rfl bare
  | bool => rcases spelled with rfl | rfl <;> decide
  | ident =>
    obtain ⟨c, cs, shape, letter, inside, -⟩ := spelled
    unfold Printable
    rw [shape]
    exact List.forall_mem_cons.2 ⟨Lexer.isPrintable_of_isLetter letter,
      fun d mem => Lexer.isPrintable_of_isWordChar (inside d mem)⟩
  | op =>
    have all : ∀ s ∈ operatorSpellings, Printable s := by decide
    exact all s spelled
  | newline => exact absurd rfl visible
  | eof =>
    rw [show s = "" from spelled]
    decide
  | keyword k =>
    rw [show s = k.spelling from spelled]
    cases k <;> decide
  | other name => exact spelled.elim

/-- An identifier stands bare in messages, since it holds only letters, digits and hyphens. -/
theorem printable_identifier {s : String} (spelled : TokenKind.ident.Spelled s) : Printable s :=
  spelled.printable (by decide) (by decide)

/-- Numbers in messages are digits, with a sign if they are negative. -/
theorem printable_toString (n : Int) : Printable (toString n) := by
  rw [← Decimal.ofList_digits]
  exact Text.printable_digits n

/-- Every message of an error ends with its position. -/
theorem Pos.printable_suffix (p : Pos) : Printable p.suffix :=
  (Printable.between (by decide) (printable_toString p.line) (by decide)).append
    (printable_toString p.col)

/-- The text of a label is a number or an identifier. -/
theorem Label.Expressible.printable_text {l : Label} (expressible : l.Expressible) :
    Printable l.text := by
  cases l with
  | num n => exact Text.printable_digits n
  | name s => exact printable_identifier expressible

/-- A label by name is quoted where it is shown, so this needs no condition. -/
theorem Label.printable_shown (l : Label) : Printable l.shown := by
  cases l with
  | num n => exact Text.printable_digits n
  | name s => exact Text.printable_quoted s

theorem Label.printable_shownOf (l : Option Label) : Printable (Label.shownOf l) := by
  cases l with
  | none => decide
  | some l => exact l.printable_shown

/-- A token is described by its own text only if that is one of letters, digits and operators.  The
texts of strings are quoted, and a line feed is described in words. -/
theorem Token.WellFormed.printable_describe {t : Token} (wf : t.WellFormed) :
    Printable t.describe := by
  unfold Token.WellFormed at wf
  have bare (notString : t.kind ≠ .string) (notFeed : t.kind ≠ .newline) :
      Printable ("'" ++ t.text ++ "'") :=
    .between (by decide) (wf.printable notString notFeed) (by decide)
  unfold describe
  split
  · decide
  · decide
  · exact Text.printable_quoted t.text
  next notFeed _ notString => exact bare notString notFeed

/-! ## Errors of loading -/

/-- The text at which scanning stopped is quoted, line ends included. -/
theorem LexError.printable_cause (e : LexError) : Printable e.cause :=
  Printable.append (by decide) (Text.printable_quoted e.snippet)

/-- What is wanted is a symbol or something that is named in words. -/
theorem Wanted.Proper.printable {w : Wanted} (proper : w.Proper) : Printable w.text := by
  cases w with
  | symbol s =>
    have bare : Printable s := by
      rcases proper with operator | ⟨k, rfl⟩
      · have spelled : TokenKind.op.Spelled s := operator
        exact spelled.printable (by decide) (by decide)
      · have spelled : (TokenKind.keyword k).Spelled k.spelling := rfl
        exact spelled.printable (by simp) (by simp)
    exact .between (by decide) bare (by decide)
  | colonAfter l =>
    exact .between (by decide) (printable_identifier proper) (by decide)
  | _ => decide

/-- A parse error names what was wanted and the token that was found. -/
theorem ParseError.Proper.printable_cause {e : ParseError} (proper : e.Proper) :
    Printable e.cause := by
  cases e with
  | expected w t =>
    exact (Printable.between (by decide) proper.1.printable (by decide)).append
      proper.2.printable_describe
  | integerTooLong t => exact (by decide : Printable "integer literal too long")
  | malformedFloat t => exact (by decide : Printable "malformed float literal")

/-- The label is shown in quotes or as digits, and the rest is words and the number of a line. -/
theorem DuplicateLabel.printable_cause (e : DuplicateLabel) : Printable e.cause :=
  (Printable.between (by decide) e.label.printable_shown (by decide)).between
    (printable_toString e.firstLine) (by decide)

/-- What loading a text says about it can be printed. -/
theorem LoadError.printable_message {source : String} {e : LoadError}
    (fails : load source = .error e) : Printable e.message := by
  refine Printable.append ?_ e.pos.printable_suffix
  cases e with
  | lexical e => exact e.printable_cause
  | duplicate e => exact e.printable_cause
  | parse e => exact (load_error_proper fails).printable_cause

/-! ## Faults of runs -/

/-- The names of kinds are words. -/
theorem Kind.printable_name (k : Kind) : Printable k.name := by
  cases k <;> decide

theorem BinaryOp.printable_symbol {op : BinaryOp} (known : op.isArith ∨ op.isLogic) :
    Printable op.symbol := by
  cases op with
  | arith a => cases a <;> decide
  | other s => simp [isArith, isLogic] at known
  | _ => decide

theorem UnaryOp.printable_symbol {op : UnaryOp} (known : op.isKnown) : Printable op.symbol := by
  cases op with
  | other s => cases known
  | _ => decide

/-- A fault names variables, labels, operators and kinds.  Values never stand in messages. -/
theorem Cause.Proper.printable_message {c : Cause} (proper : c.Proper) : Printable c.message := by
  cases c with
  | undefinedVariable x =>
    exact .between (by decide) (printable_identifier proper) (by decide)
  | undefinedLabel l => exact Printable.append (by decide) (Label.printable_shownOf l)
  | notALabel x =>
    obtain ⟨l, expressible, rfl⟩ := proper
    exact .between (by decide) expressible.printable_text (by decide)
  | conditionNotBool s k =>
    have keyword : Printable s.keyword := by cases s <;> decide
    exact (keyword.between (by decide) k.printable_name).append (by decide)
  | unsupportedOperands op l r =>
    have symbol := BinaryOp.printable_symbol proper
    exact ((Printable.between (by decide) symbol (by decide)).between l.printable_name
      (by decide)).append r.printable_name
  | unknownBinary op =>
    exact .between (by decide) (BinaryOp.printable_symbol proper) (by decide)
  | unknownUnary op =>
    exact .between (by decide) (UnaryOp.printable_symbol proper) (by decide)
  | numericOverflow op =>
    have symbol : Printable op.symbol := by cases op <;> decide
    exact .between (by decide) symbol (by decide)
  | tooLargeToDisplay k => exact k.printable_name.append (by decide)
  | cannotNegate k => exact Printable.append (by decide) k.printable_name
  | negationNeedsBool k => exact Printable.append (by decide) k.printable_name
  | logicNeedsBool op k =>
    have symbol := BinaryOp.printable_symbol proper
    exact (Printable.between (by decide) symbol (by decide)).append k.printable_name
  | divisionByZero | unknownExpression | unknownStatement => decide

/-- What a run of the program of a text says when it fails can be printed. -/
theorem Fault.printable_message {source : String} {p : Program} (loads : load source = .ok p)
    {n : Nat} {m m' : Machine} {f : Fault} (fails : p.run n m = .failed f m') :
    Printable f.message :=
  (Program.run_fault_proper loads fails).printable_message.append f.pos.printable_suffix

/-! ## All messages -/

/-- Whatever a text holds, the message of an error in it is one line, and so is the message of a
fault of its program, whatever the variables are and whatever is read. -/
theorem error_messages_one_line (source : String) :
    (∀ e, load source = .error e → OneLine e.message) ∧
      ∀ p n m f m', load source = .ok p → p.run n m = .failed f m' → OneLine f.message :=
  ⟨fun _ fails => (LoadError.printable_message fails).oneLine,
    fun _ _ _ _ _ loads fails => (Fault.printable_message loads fails).oneLine⟩

/-- A quote that is not closed before a carriage return, a string with a line feed where a label
should be, and a jump through a variable that holds a carriage return. -/
theorem error_messages_one_line_of_line_ends :
    (∃ e, load "PRINT \"a\r\n" = .error e ∧
      e.message = "unexpected input '\"a\\r' at line 1 col 7" ∧ OneLine e.message) ∧
    (∃ e, load "GOTO 'a\nb'" = .error e ∧
      e.message = "expected line label, got 'a\\nb' at line 1 col 6" ∧ OneLine e.message) ∧
    ∃ p f m', load "INPUT t \\ GOTO t" = .ok p ∧
      p.run 2 ⟨[], ["a\rb\n"], none, []⟩ = .failed f m' ∧ m'.env = [("t", .string "a\rb")] ∧
      f.message = "variable 't' does not hold a defined label at line 1 col 11" ∧
      OneLine f.message := by
  let m : Machine := ⟨[], ["a\rb\n"], none, []⟩
  have openQuote : load "PRINT \"a\r\n" = .error (.lexical ⟨⟨1, 7⟩, "\"a\r\n"⟩) := by
    decide +kernel
  have noLabel : load "GOTO 'a\nb'" =
      .error (.parse (.expected .lineLabel ⟨.string, "a\nb", ⟨1, 6⟩⟩)) := by
    decide +kernel
  obtain ⟨p, loads, fails, env⟩ := exists_load "INPUT t \\ GOTO t" (P := fun p =>
    p.run 2 m = .failed ⟨.notALabel "t", ⟨1, 11⟩⟩ (p.run 2 m).machine ∧
      (p.run 2 m).machine.env = [("t", .string "a\rb")]) (by decide +kernel)
  exact ⟨⟨_, openQuote, by decide, (error_messages_one_line _).1 _ openQuote⟩,
    ⟨_, noLabel, by decide, (error_messages_one_line _).1 _ noLabel⟩,
    p, _, _, loads, fails, env, by decide,
    (error_messages_one_line _).2 p 2 m _ _ loads fails⟩

end GotoBasic
