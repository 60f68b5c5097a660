import GotoBasic.Env
import GotoBasic.Expr
import GotoBasic.Value.Apply

/-!
# Evaluating expressions

Operands are evaluated from left to right, and the first fault ends the evaluation.  A logical
operator evaluates its right operand only if the left one does not settle the answer.
-/

namespace GotoBasic

/-- Places a cause at a position. -/
def Cause.locate {α : Type} (pos : Pos) : Except Cause α → Except Fault α
  | .ok a => .ok a
  | .error c => .error ⟨c, pos⟩

/-- The value of the left operand with which a logical operator is settled. -/
def BinaryOp.settledBy? : BinaryOp → Option Bool
  | .and => some false
  | .or => some true
  | _ => none

/-- The truth of an operand of a logical operator. -/
def Value.logical (op : BinaryOp) (pos : Pos) : Value → Except Fault Bool
  | .bool b => .ok b
  | v => .error ⟨.logicNeedsBool op v.kind, pos⟩

/-- The value of an expression. -/
def Expr.eval (env : Env) : Expr → Except Fault Value
  | .int _ n => .ok (.int n)
  | .float _ x => .ok (.float x)
  | .bool _ b => .ok (.bool b)
  | .string _ s => .ok (.string s)
  | .var pos x =>
    match env.get? x with
    | some v => .ok v
    | none => .error ⟨.undefinedVariable x, pos⟩
  | .unary pos op e => do
    let v ← e.eval env
    Cause.locate pos (Value.unary op v)
  | .binary pos op l r => do
    let v ← l.eval env
    match op.settledBy? with
    | some settled =>
      let a ← v.logical op pos
      if a = settled then
        return .bool a
      else
        let w ← r.eval env
        return .bool (← w.logical op pos)
    | none =>
      let w ← r.eval env
      Cause.locate pos (Value.binary op v w)
  | .unknown pos => .error ⟨.unknownExpression, pos⟩

end GotoBasic
