import GotoBasic.Proofs.Run.Action

/-!
# Rules of kinds

If every variable is given a kind for good, the kind of an expression can be told before a run
(`Expr.kind?`), and so can whether the statements of a program keep to the kinds of the variables
(`Program.WellKinded`).  The rules are tables, so whether a program obeys them is decidable.
-/

namespace GotoBasic

/-! ## Expressions -/

/-- The kind that a numeric operator gives on two numbers. -/
def ArithOp.kind (op : ArithOp) (a b : Kind) : Kind :=
  match op with
  | .div => .float
  | _ => if a = .int ∧ b = .int then .int else .float

def UnaryOp.kind? : UnaryOp → Kind → Option Kind
  | .neg, a => if a.isNumeric then some a else none
  | .not, .bool => some .bool
  | _, _ => none

def BinaryOp.kind? (op : BinaryOp) (a b : Kind) : Option Kind :=
  match op with
  | .arith op => if a.isNumeric ∧ b.isNumeric then some (op.kind a b) else none
  | .concat => some .string
  | .less | .greater =>
    if a.isNumeric ∧ b.isNumeric ∨ a = .string ∧ b = .string then some .bool else none
  | .eq | .ne => some .bool
  | .and | .or => if a = .bool ∧ b = .bool then some .bool else none
  | .other _ => none

/-- The kind of an expression whose variables have the kinds `G`, if it obeys the rules. -/
def Expr.kind? (G : String → Kind) : Expr → Option Kind
  | .int _ _ => some .int
  | .float _ _ => some .float
  | .bool _ _ => some .bool
  | .string _ _ => some .string
  | .var _ x => some (G x)
  | .unary _ op e => (e.kind? G).bind op.kind?
  | .binary _ op l r => (l.kind? G).bind fun a => (r.kind? G).bind (op.kind? a)
  | .unknown _ => none

/-! ## Statements -/

/-- A statement obeys the rules, and so do the statements in it. -/
def Stmt.WellKinded (G : String → Kind) : Stmt → Prop
  | .print _ e => (e.kind? G).isSome
  | .input _ x => G x = .string
  | .assign _ x e => e.kind? G = some (G x)
  | .ifThen _ cond body => cond.kind? G = some .bool ∧ body.WellKinded G
  | .ifElse _ cond body other =>
    cond.kind? G = some .bool ∧ body.WellKinded G ∧ other.WellKinded G
  | .whileThen _ cond body => cond.kind? G = some .bool ∧ body.WellKinded G
  | .goto _ _ => True
  | .nop _ => True
  | .exit _ => True
  | .unknown _ => False

instance Stmt.decidableWellKinded (G : String → Kind) : (s : Stmt) → Decidable (s.WellKinded G)
  | .print _ e => inferInstanceAs (Decidable ((e.kind? G).isSome = true))
  | .input _ x => inferInstanceAs (Decidable (G x = .string))
  | .assign _ x e => inferInstanceAs (Decidable (e.kind? G = some (G x)))
  | .ifThen _ cond body =>
    have := body.decidableWellKinded G
    inferInstanceAs (Decidable (cond.kind? G = some .bool ∧ body.WellKinded G))
  | .ifElse _ cond body other =>
    have := body.decidableWellKinded G
    have := other.decidableWellKinded G
    inferInstanceAs
      (Decidable (cond.kind? G = some .bool ∧ body.WellKinded G ∧ other.WellKinded G))
  | .whileThen _ cond body =>
    have := body.decidableWellKinded G
    inferInstanceAs (Decidable (cond.kind? G = some .bool ∧ body.WellKinded G))
  | .goto _ _ => .isTrue trivial
  | .nop _ => .isTrue trivial
  | .exit _ => .isTrue trivial
  | .unknown _ => .isFalse id

/-- All statements of a program obey the rules. -/
def Program.WellKinded (G : String → Kind) (p : Program) : Prop :=
  ∀ l ∈ p.lines, ∀ s ∈ l.stmts, s.WellKinded G

instance Program.decidableWellKinded (G : String → Kind) (p : Program) :
    Decidable (p.WellKinded G) :=
  inferInstanceAs (Decidable (∀ l ∈ p.lines, ∀ s ∈ l.stmts, s.WellKinded G))

/-- The variables that are bound have values of their kinds. -/
def Env.Conforms (G : String → Kind) (env : Env) : Prop :=
  ∀ x v, env.get? x = some v → v.kind = G x

/-- The faults of operators on operands of kinds that they take. -/
inductive Cause.OfOperands : Cause → Prop
  | divisionByZero : OfOperands .divisionByZero
  | numericOverflow (op : ArithOp) : OfOperands (.numericOverflow op)
  | tooLargeToDisplay : OfOperands (.tooLargeToDisplay .int)

/-- The faults that no kinds rule out. -/
inductive Cause.Dynamic : Cause → Prop
  | undefinedVariable (x : String) : Dynamic (.undefinedVariable x)
  | divisionByZero : Dynamic .divisionByZero
  | numericOverflow (op : ArithOp) : Dynamic (.numericOverflow op)
  | tooLargeToDisplay : Dynamic (.tooLargeToDisplay .int)
  | undefinedLabel (target : Option Label) : Dynamic (.undefinedLabel target)
  | notALabel (x : String) : Dynamic (.notALabel x)

theorem Cause.OfOperands.dynamic {c : Cause} (fault : c.OfOperands) : c.Dynamic := by
  cases fault with
  | divisionByZero => exact .divisionByZero
  | numericOverflow op => exact .numericOverflow op
  | tooLargeToDisplay => exact .tooLargeToDisplay

end GotoBasic
