import GotoBasic.Proofs.Parser.Run
import GotoBasic.Proofs.Syntax.Recast

/-!
# Parsing tokens with other contents

The parser does not notice other contents in strings, identifiers and line feeds: the tree has the
other contents at the same places, and an error is about the same token (`parseTokens_recast`).
`Parser.Recasts` says so of a parser and a stream.  The rule for sequences makes it a matter of the
single steps, each of which looks at a token only through its kind, or through its text where the
kind is neither a string nor an identifier.
-/

namespace GotoBasic

variable {ρ : Recast}

/-! ## Parsers -/

namespace Parser

variable {α β : Type} {p q : Parser α} {f g : α → Parser β} {φ : α → α} {ψ : β → β}
  {s : TokenStream}

/-- With other contents in the stream `s` the parser `q` does what `p` does, gives the result the
other contents, and complains about the same token. -/
def Recasts (ρ : Recast) (φ : α → α) (p q : Parser α) (s : TokenStream) : Prop :=
  q (s.recast ρ) =
    match p s with
    | .ok a s' => .ok (φ a) (s'.recast ρ)
    | .error e s' => .error (e.recast ρ) (s'.recast ρ)

namespace Recasts

/-- A result of the first parser is one of the second, with other contents. -/
theorem of_ok {a : α} {s' : TokenStream} (recasts : Recasts ρ φ p q s) (ok : p s = .ok a s') :
    q (s.recast ρ) = .ok (φ a) (s'.recast ρ) := by
  unfold Recasts at recasts
  rw [ok] at recasts
  exact recasts

/-- An error of the first parser is one of the second: it is at the same token and names its other
contents. -/
theorem of_error {e : ParseError} {s' : TokenStream} (recasts : Recasts ρ φ p q s)
    (error : p s = .error e s') : q (s.recast ρ) = .error (e.recast ρ) (s'.recast ρ) := by
  unfold Recasts at recasts
  rw [error] at recasts
  exact recasts

/-! ### Rules -/

theorem pure (a : α) : Recasts ρ φ (Pure.pure a) (Pure.pure (φ a)) s := rfl

/-- What is wanted is the same, except that a colon may be wanted behind another name. -/
theorem fail {w : Wanted} : Recasts ρ φ (Parser.fail w) (Parser.fail (w.recast ρ)) s := by
  unfold Recasts
  rw [fail_apply, fail_apply, TokenStream.current_recast]
  rfl

/-- The rule for sequences.  The second parsers need to agree only on what the first one can
give. -/
theorem bind (first : Recasts ρ φ p q s)
    (next : ∀ a s', p s = .ok a s' → Recasts ρ ψ (f a) (g (φ a)) s') :
    Recasts ρ ψ (p >>= f) (q >>= g) s := by
  unfold Recasts
  cases result : p s with
  | ok a s' =>
    rw [bind_apply_of_ok result, bind_apply_of_ok (first.of_ok result)]
    exact next a s' result
  | error e s' =>
    rw [bind_apply_of_error result, bind_apply_of_error (first.of_error result)]

/-- A parser that looks at a token sees the one with other contents. -/
theorem current_bind {f g : Token → Parser β}
    (next : Recasts ρ ψ (f s.current) (g (s.current.recast ρ)) s) :
    Recasts ρ ψ (current >>= f) (current >>= g) s := by
  unfold Recasts
  rw [current_bind_apply, current_bind_apply, TokenStream.current_recast]
  exact next

theorem advance_bind {f g : Unit → Parser β} (next : Recasts ρ ψ (f ()) (g ()) s.rest) :
    Recasts ρ ψ (advance >>= f) (advance >>= g) s := by
  unfold Recasts
  rw [advance_bind_apply, advance_bind_apply, TokenStream.rest_recast]
  exact next

/-! ### Terminals -/

/-- Symbols are no contents, and no contents can look like a symbol. -/
theorem expect (symbol : String) :
    Recasts ρ id (Parser.expect symbol) (Parser.expect symbol) s := by
  unfold Recasts
  rw [expect_apply, expect_apply, TokenStream.current_recast, Token.isSymbol_recast]
  by_cases found : s.current.isSymbol symbol
  · simp only [if_pos found, TokenStream.rest_recast, id]
  · simp only [if_neg found]
    rfl

theorem accept (symbol : String) :
    Recasts ρ id (Parser.accept symbol) (Parser.accept symbol) s := by
  unfold Recasts
  rw [accept_apply, accept_apply, TokenStream.current_recast, Token.isSymbol_recast]
  by_cases found : s.current.isSymbol symbol
  · simp only [if_pos found, TokenStream.rest_recast, id]
  · simp only [if_neg found]
    rfl

/-- The text of an identifier is its contents, so the parser gives another name. -/
theorem identifier : Recasts ρ ρ.name Parser.identifier Parser.identifier s := by
  unfold Recasts
  rw [identifier_apply, identifier_apply, TokenStream.current_recast, Token.kind_recast]
  by_cases kind : s.current.kind = .ident
  · simp only [if_pos kind, Token.recast_of_ident kind, TokenStream.rest_recast]
  · simp only [if_neg kind]
    rfl

/-- A number has no contents that could be others. -/
theorem integer {t : Token} (kind : t.kind = .int) :
    Recasts ρ id (Parser.integer t) (Parser.integer t) s := by
  have same : t.recast ρ = t :=
    Token.recast_eq_self (by simp [kind]) (by simp [kind]) (by simp [kind])
  unfold Recasts Parser.integer
  cases Decimal.integer? t.text.toList with
  | some n => rfl
  | none => exact congrArg (fun t => EStateM.Result.error (ParseError.integerTooLong t) _) same.symm

theorem double {t : Token} (kind : t.kind = .float) :
    Recasts ρ id (Parser.double t) (Parser.double t) s := by
  have same : t.recast ρ = t :=
    Token.recast_eq_self (by simp [kind]) (by simp [kind]) (by simp [kind])
  unfold Recasts Parser.double
  cases Binary64.ofText? t.text.toList with
  | some x => rfl
  | none => exact congrArg (fun t => EStateM.Result.error (ParseError.malformedFloat t) _) same.symm

end Recasts

/-! ## Expressions -/

section Chains

variable {tier : BinaryOp → Bool} {operand : Parser Expr}
  (operands : ∀ s, Recasts ρ (Expr.recast ρ) operand operand s)

include operands

/-- Which operators stand between the operands does not depend on contents. -/
theorem chainFrom_recasts (n : Nat) (left : Expr) (s : TokenStream) :
    Recasts ρ (Expr.recast ρ) (chainFrom tier operand n left)
      (chainFrom tier operand n (left.recast ρ)) s := by
  induction n generalizing left s with
  | zero => exact Recasts.pure left
  | succ n ih =>
    unfold chainFrom
    refine Recasts.current_bind ?_
    rw [Token.binaryOp?_recast]
    cases s.current.binaryOp? tier with
    | none => exact Recasts.pure left
    | some op =>
      refine Recasts.advance_bind (Recasts.bind (operands s.rest) fun right s' _ => ?_)
      rw [Expr.pos_recast]
      exact ih (.binary left.pos op left right) s'

theorem chain_recasts (n : Nat) (s : TokenStream) :
    Recasts ρ (Expr.recast ρ) (chain tier n operand) (chain tier n operand) s :=
  Recasts.bind (operands s) fun left s' _ => chainFrom_recasts operands n left s'

end Chains

theorem exprOf_recasts {unary : Parser Expr}
    (operands : ∀ s, Recasts ρ (Expr.recast ρ) unary unary s) (n : Nat) (s : TokenStream) :
    Recasts ρ (Expr.recast ρ) (exprOf n unary) (exprOf n unary) s :=
  chain_recasts (fun s => chain_recasts operands n s) n s

/-- The kind of the first token decides, and the only texts that come into the tree are contents, or
digits, which stay. -/
theorem primary_recasts {inner : Parser Expr}
    (inners : ∀ s, Recasts ρ (Expr.recast ρ) inner inner s) (s : TokenStream) :
    Recasts ρ (Expr.recast ρ) (primary inner) (primary inner) s := by
  have group : Recasts ρ (Expr.recast ρ)
      (if s.current.isSymbol "(" then do
        advance
        let e ← inner
        expect ")"
        return e
      else fail .expression)
      (if (s.current.recast ρ).isSymbol "(" then do
        advance
        let e ← inner
        expect ")"
        return e
      else fail .expression) s := by
    rw [Token.isSymbol_recast]
    by_cases found : s.current.isSymbol "("
    · simp only [if_pos found]
      refine Recasts.advance_bind (Recasts.bind (inners s.rest) fun e s' _ => ?_)
      exact Recasts.bind (Recasts.expect ")") fun _ _ _ => Recasts.pure e
    · simp only [if_neg found]
      exact Recasts.fail
  unfold primary
  refine Recasts.current_bind ?_
  rw [Token.kind_recast]
  cases kind : s.current.kind with
  | int =>
    rw [Token.recast_eq_self (by simp [kind]) (by simp [kind]) (by simp [kind])]
    refine Recasts.advance_bind (Recasts.bind (Recasts.integer kind) fun n s' _ => ?_)
    exact Recasts.pure (Expr.int s.current.pos n)
  | float =>
    rw [Token.recast_eq_self (by simp [kind]) (by simp [kind]) (by simp [kind])]
    refine Recasts.advance_bind (Recasts.bind (Recasts.double kind) fun x s' _ => ?_)
    exact Recasts.pure (Expr.float s.current.pos x)
  | string =>
    rw [Token.recast_of_string kind]
    exact Recasts.advance_bind (Recasts.pure (Expr.string s.current.pos s.current.text))
  | bool =>
    rw [Token.recast_eq_self (by simp [kind]) (by simp [kind]) (by simp [kind])]
    exact Recasts.advance_bind (Recasts.pure (Expr.bool s.current.pos (s.current.text == "#t")))
  | ident =>
    rw [Token.recast_of_ident kind]
    exact Recasts.advance_bind (Recasts.pure (Expr.var s.current.pos s.current.text))
  | _ => exact group

/-- By induction on the bound, which every sign lowers by one. -/
theorem unary_recasts (n : Nat) (s : TokenStream) :
    Recasts ρ (Expr.recast ρ) (unary n) (unary n) s := by
  induction n generalizing s with
  | zero => exact Recasts.fail
  | succ n ih =>
    unfold unary
    refine Recasts.current_bind ?_
    rw [Token.unaryOp?_recast]
    cases found : s.current.unaryOp? with
    | some op =>
      have kind : s.current.kind = .op := by
        unfold Token.unaryOp? at found
        dsimp only at found
        split at found
        next fits => exact fits.1
        · cases found
      rw [Token.pos_recast (by simp [kind])]
      refine Recasts.advance_bind (Recasts.bind (ih s.rest) fun e s' _ => ?_)
      exact Recasts.pure (Expr.unary s.current.pos op e)
    | none => exact primary_recasts (fun s => exprOf_recasts ih n s) s

theorem expr_recasts (n : Nat) (s : TokenStream) :
    Recasts ρ (Expr.recast ρ) (expr n) (expr n) s :=
  exprOf_recasts (unary_recasts n) n s

/-! ## Statements -/

theorem labelRef_recasts (s : TokenStream) :
    Recasts ρ (Label.recast ρ) labelRef labelRef s := by
  unfold labelRef
  refine Recasts.current_bind ?_
  rw [Token.kind_recast]
  cases kind : s.current.kind with
  | int =>
    rw [Token.recast_eq_self (by simp [kind]) (by simp [kind]) (by simp [kind])]
    refine Recasts.advance_bind (Recasts.bind (Recasts.integer kind) fun n s' _ => ?_)
    exact Recasts.pure (Label.num n)
  | ident =>
    rw [Token.recast_of_ident kind]
    exact Recasts.advance_bind (Recasts.pure (Label.name s.current.text))
  | _ => exact Recasts.fail

/-- By induction on the bound.  The reserved words of a statement are symbols, so contents decide
nothing. -/
theorem stmt_recasts (n : Nat) (s : TokenStream) :
    Recasts ρ (Stmt.recast ρ) (stmt n) (stmt n) s := by
  induction n generalizing s with
  | zero => exact Recasts.fail
  | succ n ih =>
    unfold stmt
    refine Recasts.current_bind ?_
    cases kind : s.current.kind with
    | keyword k =>
      rw [Token.recast_eq_self (by simp [kind]) (by simp [kind]) (by simp [kind]), kind]
      cases k with
      | printWord =>
        refine Recasts.bind (Recasts.expect _) fun _ _ _ => ?_
        exact Recasts.bind (expr_recasts _ _) fun e _ _ => Recasts.pure (Stmt.print s.current.pos e)
      | inputWord =>
        refine Recasts.bind (Recasts.expect _) fun _ _ _ => ?_
        exact Recasts.bind Recasts.identifier fun x _ _ => Recasts.pure (Stmt.input s.current.pos x)
      | letWord =>
        refine Recasts.bind (Recasts.expect _) fun _ _ _ => ?_
        refine Recasts.bind Recasts.identifier fun x _ _ => ?_
        refine Recasts.bind (Recasts.expect _) fun _ _ _ => ?_
        exact Recasts.bind (expr_recasts _ _) fun e _ _ =>
          Recasts.pure (Stmt.assign s.current.pos x e)
      | ifWord =>
        refine Recasts.bind (Recasts.expect _) fun _ _ _ => ?_
        refine Recasts.bind (expr_recasts _ _) fun c _ _ => ?_
        refine Recasts.bind (Recasts.expect _) fun _ _ _ => ?_
        refine Recasts.bind (ih _) fun b _ _ => ?_
        refine Recasts.bind (Recasts.accept _) fun found _ _ => ?_
        cases found with
        | true =>
          exact Recasts.bind (ih _) fun o _ _ => Recasts.pure (Stmt.ifElse s.current.pos c b o)
        | false => exact Recasts.pure (Stmt.ifThen s.current.pos c b)
      | whileWord =>
        refine Recasts.bind (Recasts.expect _) fun _ _ _ => ?_
        refine Recasts.bind (expr_recasts _ _) fun c _ _ => ?_
        refine Recasts.bind (Recasts.expect _) fun _ _ _ => ?_
        exact Recasts.bind (ih _) fun b _ _ => Recasts.pure (Stmt.whileThen s.current.pos c b)
      | gotoWord =>
        refine Recasts.advance_bind (Recasts.bind (labelRef_recasts _) fun l _ _ => ?_)
        exact Recasts.pure (Stmt.goto s.current.pos (some l))
      | nopWord => exact Recasts.advance_bind (Recasts.pure (Stmt.nop s.current.pos))
      | exitWord => exact Recasts.advance_bind (Recasts.pure (Stmt.exit s.current.pos))
      | _ => exact Recasts.fail
    | _ =>
      rw [Token.kind_recast, kind]
      exact Recasts.fail

/-! ## Lines -/

/-- A name is a label only with a colon behind it, and that is no question of contents. -/
theorem labelDecl_recasts (s : TokenStream) :
    Recasts ρ (Option.map (Label.recast ρ)) labelDecl labelDecl s := by
  unfold labelDecl
  refine Recasts.current_bind ?_
  rw [Token.kind_recast]
  cases kind : s.current.kind with
  | int =>
    rw [Token.recast_eq_self (by simp [kind]) (by simp [kind]) (by simp [kind])]
    refine Recasts.advance_bind (Recasts.bind (Recasts.accept ":") fun _ _ _ => ?_)
    exact Recasts.bind (Recasts.integer kind) fun n _ _ => Recasts.pure (some (Label.num n))
  | ident =>
    rw [Token.recast_of_ident kind]
    refine Recasts.advance_bind (Recasts.bind (Recasts.accept ":") fun found _ _ => ?_)
    cases found with
    | true => exact Recasts.pure (some (Label.name s.current.text))
    | false => exact Recasts.fail
  | _ => exact Recasts.pure none

theorem stmtsFrom_recasts (n : Nat) (s : TokenStream) :
    Recasts ρ (List.map (Stmt.recast ρ)) (stmtsFrom n) (stmtsFrom n) s := by
  induction n generalizing s with
  | zero => exact Recasts.pure []
  | succ n ih =>
    unfold stmtsFrom
    refine Recasts.bind (Recasts.accept "\\") fun found _ _ => ?_
    cases found with
    | true =>
      refine Recasts.bind (stmt_recasts _ _) fun a _ _ => ?_
      exact Recasts.bind (ih _) fun ss _ _ => Recasts.pure (a :: ss)
    | false => exact Recasts.pure []

theorem endOfLine_recasts (s : TokenStream) : Recasts ρ id endOfLine endOfLine s := by
  unfold endOfLine
  refine Recasts.current_bind ?_
  rw [Token.kind_recast]
  by_cases feed : s.current.kind = .newline
  · simp only [if_pos feed]
    exact Recasts.advance_bind (Recasts.pure ())
  · simp only [if_neg feed]
    by_cases final : s.current.kind = .eof
    · simp only [if_pos final]
      exact Recasts.pure ()
    · simp only [if_neg final]
      exact Recasts.fail

/-- No line starts with a line feed. -/
theorem line_apply_of_newline {s : TokenStream} (feed : s.current.kind = .newline) (n : Nat) :
    line n s = .error (.expected .statement s.current) s := by
  have label : labelDecl s = .ok none s := by
    unfold labelDecl
    rw [current_bind_apply, feed]
    rfl
  have statement : stmt n s = .error (.expected .statement s.current) s := by
    cases n with
    | zero => rfl
    | succ n =>
      unfold stmt
      rw [current_bind_apply, feed]
      rfl
  unfold line
  rw [current_bind_apply, bind_apply_of_ok label, bind_apply_of_error statement]

/-- A line stands where its first token does, and this is no line feed. -/
theorem line_recasts (n : Nat) (s : TokenStream) :
    Recasts ρ (Line.recast ρ) (line n) (line n) s := by
  by_cases feed : s.current.kind = .newline
  · have feed' : (s.recast ρ).current.kind = .newline := by
      rw [TokenStream.current_recast, Token.kind_recast, feed]
    unfold Recasts
    rw [line_apply_of_newline feed, line_apply_of_newline feed', TokenStream.current_recast]
    rfl
  · unfold line
    refine Recasts.current_bind ?_
    rw [Token.pos_recast feed]
    refine Recasts.bind (labelDecl_recasts s) fun label _ _ => ?_
    refine Recasts.bind (stmt_recasts _ _) fun a _ _ => ?_
    refine Recasts.bind (stmtsFrom_recasts _ _) fun ss _ _ => ?_
    exact Recasts.bind (endOfLine_recasts _) fun _ _ _ =>
      Recasts.pure (Line.mk s.current.pos label (a :: ss))

theorem skipNewlines_recasts (s : TokenStream) : Recasts ρ id skipNewlines skipNewlines s := by
  change EStateM.Result.ok () _ = EStateM.Result.ok () _
  simp [TokenStream.recast, List.dropWhile_map, Function.comp_def]

/-- Lines end where they ended, so each is read as before. -/
theorem program_recasts (n : Nat) (s : TokenStream) :
    Recasts ρ (List.map (Line.recast ρ)) (program n) (program n) s := by
  induction n generalizing s with
  | zero => exact Recasts.pure []
  | succ n ih =>
    unfold program
    refine Recasts.bind (skipNewlines_recasts s) fun _ s' _ => Recasts.current_bind ?_
    rw [Token.kind_recast]
    by_cases final : s'.current.kind = .eof
    · simp only [if_pos final]
      exact Recasts.pure []
    · simp only [if_neg final]
      refine Recasts.bind (line_recasts _ s') fun l s'' _ => ?_
      exact Recasts.bind (ih s'') fun ls _ _ => Recasts.pure (l :: ls)

end Parser

/-- Other contents in the tokens give other contents in the tree, or an error about the same
token. -/
theorem parseTokens_recast (ρ : Recast) (ts : List Token) :
    parseTokens (ts.map (Token.recast ρ)) =
      match parseTokens ts with
      | .ok ls => .ok (ls.map (Line.recast ρ))
      | .error e => .error (e.recast ρ) := by
  have recasts := Parser.program_recasts (ρ := ρ) (TokenStream.ofTokens ts).bound
    (TokenStream.ofTokens ts)
  simp only [parseTokens, TokenStream.ofTokens_recast, TokenStream.bound_recast]
  cases result : Parser.program (TokenStream.ofTokens ts).bound (TokenStream.ofTokens ts) with
  | ok ls s => rw [recasts.of_ok result]
  | error e s => rw [recasts.of_error result]

/-- Strings and names are no syntax, whatever they are: with other texts in the strings and other
names in the identifiers, token lists are the programs they were but for these texts and names, or
are rejected where they were. -/
theorem parseTokens_contents (text name : String → String) (ts : List Token) :
    let ρ := Recast.contents text name
    match parseTokens ts with
    | .ok ls => parseTokens (ts.map (Token.recast ρ)) = .ok (ls.map (Line.recast ρ))
    | .error e => ∃ e', parseTokens (ts.map (Token.recast ρ)) = .error e' ∧ e'.pos = e.pos := by
  have recast := parseTokens_recast (.contents text name) ts
  cases result : parseTokens ts with
  | ok ls =>
    rw [result] at recast
    exact recast
  | error e =>
    rw [result] at recast
    exact ⟨e.recast (.contents text name), recast, e.pos_recast_contents text name⟩

-- A string spelled like a parenthesis behind a variable that is named like a reserved word.
example : (parseTokens
    [⟨.keyword .printWord, "PRINT", ⟨1, 1⟩⟩, ⟨.ident, "ELSE", ⟨1, 7⟩⟩, ⟨.op, "+", ⟨1, 9⟩⟩,
      ⟨.string, ")", ⟨1, 11⟩⟩, ⟨.eof, "", ⟨1, 14⟩⟩]).toOption =
    some [⟨⟨1, 1⟩, none, [.print ⟨1, 1⟩
      (.binary ⟨1, 7⟩ (.arith .add) (.var ⟨1, 7⟩ "ELSE") (.string ⟨1, 11⟩ ")"))]⟩] := by
  decide +kernel

end GotoBasic
