import GotoBasic.Proofs.Parser.Grammatical

/-!
# What parse errors name

A parser names the symbols of the language, the identifier at the start of a line, and the token
that it finds instead of what it wants.  On the tokens of a text all of these are spelled as their
kinds demand (`parseTokens_error_proper`).  `Parser.Reports` says so of a single parser; it is kept
by sequences, so each parser has it because its parts have it.
-/

namespace GotoBasic

/-- Symbols and reserved words are those of the language, and a label is an identifier. -/
def Wanted.Proper : Wanted → Prop
  | .symbol s => s ∈ operatorSpellings ∨ ∃ k : Keyword, k.spelling = s
  | .colonAfter l => TokenKind.ident.Spelled l
  | _ => True

/-- An error about a token that a text can have. -/
def ParseError.Proper : ParseError → Prop
  | .expected w t => w.Proper ∧ t.WellFormed
  | .integerTooLong t => t.WellFormed
  | .malformedFloat t => t.WellFormed

/-- A parser may miss any of the reserved words. -/
theorem Wanted.proper_word (k : Keyword) : (Wanted.symbol k.spelling).Proper := .inr ⟨k, rfl⟩

namespace Parser

variable {α β : Type} {p : Parser α} {f : α → Parser β}

/-- On tokens of a text `p` leaves tokens of a text, or fails with an error about such tokens. -/
def Reports (p : Parser α) : Prop :=
  ∀ s : TokenStream, s.Scanned →
    match p s with
    | .ok _ s' => s'.Scanned
    | .error e _ => e.Proper

namespace Reports

/-! ## Rules -/

theorem pure (a : α) : Reports (Pure.pure a) := fun _ scanned => scanned

/-- A sequence reports what its parts report; the second part begins on a stream that is still one
of a text. -/
theorem bind (first : Reports p) (next : ∀ a, Reports (f a)) : Reports (p >>= f) := by
  intro s scanned
  have here := first s scanned
  cases result : p s with
  | ok a s' =>
    rw [result] at here
    rw [bind_apply_of_ok result]
    exact next a s' here
  | error e s' =>
    rw [result] at here
    rw [bind_apply_of_error result]
    exact here

/-- The current token is one of a text. -/
theorem current_bind {f : Token → Parser β} (next : ∀ t, t.WellFormed → Reports (f t)) :
    Reports (current >>= f) := by
  intro s scanned
  rw [current_bind_apply]
  exact next s.current scanned.current s scanned

/-- What is left of a stream of a text is one. -/
theorem advance : Reports Parser.advance := fun _ scanned => scanned.rest

theorem advance_bind {f : Unit → Parser β} (next : Reports (f ())) :
    Reports (Parser.advance >>= f) :=
  advance.bind fun _ => next

/-- Refusing names the next token, which is one of the text. -/
theorem fail {w : Wanted} (proper : w.Proper) : Reports (Parser.fail w : Parser α) :=
  fun _ scanned => ⟨proper, scanned.current⟩

theorem throw {e : ParseError} (proper : e.Proper) : Reports (throw e : Parser α) :=
  fun _ _ => proper

/-! ## Terminals -/

theorem expect {symbol : String} (proper : (Wanted.symbol symbol).Proper) :
    Reports (Parser.expect symbol) := by
  unfold Parser.expect
  refine current_bind fun t _ => ?_
  split
  · exact advance
  · exact fail proper

/-- Trying a symbol reports nothing. -/
theorem accept (symbol : String) : Reports (Parser.accept symbol) := by
  unfold Parser.accept
  refine current_bind fun t _ => ?_
  split
  · exact advance_bind (pure true)
  · exact pure false

theorem identifier : Reports Parser.identifier := by
  unfold Parser.identifier
  refine current_bind fun t _ => ?_
  split
  · exact advance_bind (pure t.text)
  · exact fail trivial

/-- Digits that are too many are named together with their token. -/
theorem integer {t : Token} (wf : t.WellFormed) : Reports (Parser.integer t) := by
  unfold Parser.integer
  split
  · exact pure _
  · exact throw wf

theorem double {t : Token} (wf : t.WellFormed) : Reports (Parser.double t) := by
  unfold Parser.double
  split
  · exact pure _
  · exact throw wf

end Reports

open Wanted (proper_word)

/-! ## Expressions -/

section Chains

variable {tier : BinaryOp → Bool} {operand : Parser Expr} (operands : Reports operand)

include operands

/-- The loop over the operands reports what they report. -/
theorem chainFrom_reports (n : Nat) (left : Expr) : Reports (chainFrom tier operand n left) := by
  induction n generalizing left with
  | zero => exact .pure left
  | succ n ih =>
    unfold chainFrom
    refine .current_bind fun t _ => ?_
    split
    · exact .pure left
    · exact .advance_bind (operands.bind fun right => ih _)

theorem chain_reports (n : Nat) : Reports (chain tier n operand) :=
  operands.bind (chainFrom_reports operands n)

end Chains

theorem exprOf_reports {operand : Parser Expr} (operands : Reports operand) (n : Nat) :
    Reports (exprOf n operand) :=
  chain_reports (chain_reports operands n) n

/-- A group may miss its closing parenthesis. -/
theorem primary_reports {inner : Parser Expr} (inners : Reports inner) :
    Reports (primary inner) := by
  unfold primary
  refine .current_bind fun t wf => ?_
  split
  · exact .advance_bind ((Reports.integer wf).bind fun _ => .pure _)
  · exact .advance_bind ((Reports.double wf).bind fun _ => .pure _)
  · exact .advance_bind (.pure _)
  · exact .advance_bind (.pure _)
  · exact .advance_bind (.pure _)
  · split
    · refine .advance_bind (inners.bind fun e => ?_)
      exact (Reports.expect (.inl (by decide))).bind fun _ => .pure e
    · exact .fail trivial

/-- By induction on the bound, which every sign lowers by one. -/
theorem unary_reports (n : Nat) : Reports (unary n) := by
  induction n with
  | zero => exact .fail trivial
  | succ n ih =>
    unfold unary
    refine .current_bind fun t _ => ?_
    split
    · exact .advance_bind (ih.bind fun _ => .pure _)
    · exact primary_reports (exprOf_reports ih n)

theorem expr_reports (n : Nat) : Reports (expr n) := exprOf_reports (unary_reports n) n

/-! ## Statements -/

theorem labelRef_reports : Reports labelRef := by
  unfold labelRef
  refine .current_bind fun t wf => ?_
  split
  · exact .advance_bind ((Reports.integer wf).bind fun _ => .pure _)
  · exact .advance_bind (.pure _)
  · exact .fail trivial

/-- A word, a condition and `THEN`. -/
theorem guarded_reports {F : Expr → Parser Stmt} (k : Keyword) (n : Nat)
    (next : ∀ c, Reports (F c)) :
    Reports (do expect k.spelling; let c ← expr n; expect "THEN"; F c) := by
  refine (Reports.expect (proper_word k)).bind fun _ => ?_
  refine (expr_reports n).bind fun c => ?_
  exact (Reports.expect (proper_word .thenWord)).bind fun _ => next c

/-- By induction on the bound, which every statement inside another lowers by one.  All words and
signs that a statement may miss are spelled as the lexer knows them. -/
theorem stmt_reports (n : Nat) : Reports (stmt n) := by
  induction n with
  | zero => exact .fail trivial
  | succ n ih =>
    unfold stmt
    refine .current_bind fun t _ => ?_
    split
    · refine (Reports.expect (proper_word .printWord)).bind fun _ => ?_
      exact (expr_reports (n + 1)).bind fun _ => .pure _
    · refine (Reports.expect (proper_word .inputWord)).bind fun _ => ?_
      exact Reports.identifier.bind fun _ => .pure _
    · refine (Reports.expect (proper_word .letWord)).bind fun _ => ?_
      refine Reports.identifier.bind fun x => ?_
      refine (Reports.expect (.inl (by decide))).bind fun _ => ?_
      exact (expr_reports (n + 1)).bind fun _ => .pure _
    · refine guarded_reports .ifWord (n + 1) fun cond => ih.bind fun body => ?_
      refine (Reports.accept "ELSE").bind fun more => ?_
      split
      · exact ih.bind fun _ => .pure _
      · exact .pure _
    · exact guarded_reports .whileWord (n + 1) fun cond => ih.bind fun _ => .pure _
    · exact .advance_bind (labelRef_reports.bind fun _ => .pure _)
    · exact .advance_bind (.pure _)
    · exact .advance_bind (.pure _)
    · exact .fail trivial

/-! ## Lines -/

/-- A label by name may miss its colon, and then the name is an identifier of the text. -/
theorem labelDecl_reports : Reports labelDecl := by
  unfold labelDecl
  refine .current_bind fun t wf => ?_
  split
  · refine .advance_bind ((Reports.accept ":").bind fun _ => ?_)
    exact (Reports.integer wf).bind fun _ => .pure _
  next ident =>
    have name : TokenKind.ident.Spelled t.text := by
      rw [Token.WellFormed, ident] at wf
      exact wf
    refine .advance_bind ((Reports.accept ":").bind fun found => ?_)
    split
    · exact .pure _
    · exact .fail name
  · exact .pure none

theorem stmtsFrom_reports (n : Nat) : Reports (stmtsFrom n) := by
  induction n with
  | zero => exact .pure []
  | succ n ih =>
    unfold stmtsFrom
    refine (Reports.accept "\\").bind fun found => ?_
    split
    · exact (stmt_reports (n + 1)).bind fun s => ih.bind fun _ => .pure _
    · exact .pure []

theorem endOfLine_reports : Reports endOfLine := by
  unfold endOfLine
  refine .current_bind fun t _ => ?_
  split
  · exact .advance
  split
  · exact .pure ()
  · exact .fail trivial

theorem line_reports (n : Nat) : Reports (line n) := by
  unfold line
  refine .current_bind fun t _ => ?_
  refine labelDecl_reports.bind fun label => ?_
  refine (stmt_reports n).bind fun s => ?_
  refine (stmtsFrom_reports n).bind fun ss => ?_
  exact endOfLine_reports.bind fun _ => .pure _

theorem skipNewlines_reports : Reports skipNewlines := by
  intro s scanned
  let feed (t : Token) : Bool := t.kind = .newline
  have passed : s.pending = s.pending.takeWhile feed ++ s.pending.dropWhile feed :=
    List.takeWhile_append_dropWhile.symm
  exact scanned.of_append passed rfl

/-- A program reports what its lines report. -/
theorem program_reports (n : Nat) : Reports (program n) := by
  induction n with
  | zero => exact .pure []
  | succ n ih =>
    unfold program
    refine skipNewlines_reports.bind fun _ => ?_
    refine .current_bind fun t _ => ?_
    split
    · exact .pure []
    · exact (line_reports (n + 1)).bind fun l => ih.bind fun _ => .pure _

end Parser

/-- What the parser says about tokens of a text names only what a text can have. -/
theorem parseTokens_error_proper {s : TokenStream} {e : ParseError} (scanned : s.Scanned)
    (error : parseTokens s.toTokens = .error e) : e.Proper := by
  rw [parseTokens_toTokens scanned] at error
  have reports := Parser.program_reports s.bound s scanned
  cases result : Parser.program s.bound s with
  | ok ls s' =>
    rw [result] at error
    cases error
  | error e' s' =>
    rw [result] at error reports
    cases error
    exact reports

/-- A text is refused by the parser because its tokens are. -/
theorem load_error_proper {source : String} {e : ParseError}
    (fails : load source = .error (.parse e)) : e.Proper := by
  cases tokens : tokenize source with
  | error e' =>
    rw [load, parse, tokens] at fails
    cases fails
  | ok ts =>
    rw [load, parse_of_tokenize tokens] at fails
    obtain ⟨s, scanned, rfl⟩ := tokenize_scanned tokens
    cases parsed : parseTokens s.toTokens with
    | error e' =>
      rw [parsed] at fails
      cases fails
      exact parseTokens_error_proper scanned parsed
    | ok ls =>
      rw [parsed] at fails
      change (Program.ofLines ls).mapError _ = _ at fails
      cases built : Program.ofLines ls with
      | error e' =>
        rw [built] at fails
        cases fails
      | ok p =>
        rw [built] at fails
        cases fails

end GotoBasic
