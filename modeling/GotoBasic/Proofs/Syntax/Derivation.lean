import GotoBasic.Proofs.Grammar

/-!
# Induction on derivations of expressions

Chains are folded to the left and operands nest through both tiers of operators, so a derivation of
an expression does not have the shape of its tree.  `Grammar.ExpressionRules` says what the grammar
does to tokens and trees in terms of trees, with one field for each kind of node and one for
parentheses, and `Grammar.Expression.holds` is the induction over it.
-/

namespace GotoBasic.Grammar

/-- A relation between token lists and expressions that every way to derive an expression keeps.
A binary node stands where its left operand does. -/
structure ExpressionRules (P : List Token → Expr → Prop) : Prop where
  int {t : Token} {n : Int} (literal : Integer t n) : P [t] (.int t.pos n)
  float {t : Token} {x : Binary64} (literal : Double t x) : P [t] (.float t.pos x)
  string {t : Token} (kind : t.kind = .string) : P [t] (.string t.pos t.text)
  bool {t : Token} (kind : t.kind = .bool) : P [t] (.bool t.pos (t.text == "#t"))
  var {t : Token} (kind : t.kind = .ident) : P [t] (.var t.pos t.text)
  group {l r : Token} {u : List Token} {e : Expr} (left : Operator "(" l) (inner : P u e)
    (right : Operator ")" r) : P (l :: u ++ [r]) e
  unary {t : Token} {u : List Token} {op : UnaryOp} {e : Expr} (known : op.isKnown)
    (operator : Operator op.symbol t) (operand : P u e) : P (t :: u) (.unary t.pos op e)
  binary {t : Token} {u v : List Token} {op : BinaryOp} {l r : Expr}
    (known : op.isArith ∨ op.isLogic) (operator : Operator op.symbol t) (left : P u l)
    (right : P v r) : P (u ++ t :: v) (.binary l.pos op l r)

variable {P : List Token → Expr → Prop} {tier : BinaryOp → Bool}
  {Operand : List Token → Expr → Prop} {u v : List Token} {e : Expr}

theorem Links.holds {links : List (BinaryOp × Expr)} (rules : ExpressionRules P)
    (known : ∀ op, tier op → op.isArith ∨ op.isLogic) (more : Links tier Operand v links)
    (first : P u e)
    (operands : ∀ w e, w.length ≤ v.length → Operand w e → P w e) :
    P (u ++ v) (e.foldLinks links) := by
  induction more generalizing u e with
  | nil =>
    rw [List.append_nil]
    exact first
  | @cons t w v op right links inTier operator operand more ih =>
    have here : P w right := operands w right (by simp; omega) operand
    have joined := rules.binary (known op inTier) operator first here
    have whole : u ++ (t :: w ++ v) = u ++ t :: w ++ v := by simp
    rw [whole]
    exact ih joined fun w' e' short => operands w' e' (by simp; omega)

theorem Chain.holds (rules : ExpressionRules P) (known : ∀ op, tier op → op.isArith ∨ op.isLogic)
    (derives : Chain tier Operand u e)
    (operands : ∀ w e, w.length ≤ u.length → Operand w e → P w e) : P u e := by
  cases derives with
  | @intro u v e links first more =>
    refine more.holds rules known (operands u e (by simp) first) fun w e' short => ?_
    exact operands w e' (by simp; omega)

/-- Both tiers of operators are chains. -/
theorem Expression.holds_of_operands (rules : ExpressionRules P) (derives : Expression u e)
    (operands : ∀ w e, w.length ≤ u.length → Unary w e → P w e) : P u e := by
  refine derives.holds rules (fun _ => .inr) fun v e' short arith => ?_
  refine arith.holds rules (fun _ => .inl) fun w e'' short' => ?_
  exact operands w e'' (Nat.le_trans short' short)

theorem Unary.holds (rules : ExpressionRules P) (derives : Unary u e) : P u e := by
  induction size : u.length using Nat.strongRecOn generalizing u e with
  | ind n ih =>
    cases derives with
    | apply known operator operand =>
      exact rules.unary known operator (ih _ (by rw [← size]; exact Nat.lt_succ_self _) operand rfl)
    | primary operand =>
      cases operand with
      | int literal => exact rules.int literal
      | float literal => exact rules.float literal
      | string kind => exact rules.string kind
      | bool kind => exact rules.bool kind
      | var kind => exact rules.var kind
      | @group l r u e left inner right =>
        rw [List.length_append, List.length_cons] at size
        refine rules.group left (Expression.holds_of_operands rules inner ?_) right
        exact fun w e' short operand => ih w.length (by omega) operand rfl

/-- What every way to derive an expression keeps holds of every derived expression. -/
theorem Expression.holds (rules : ExpressionRules P) (derives : Expression u e) : P u e :=
  holds_of_operands rules derives fun _ _ _ operand => operand.holds rules

end GotoBasic.Grammar
