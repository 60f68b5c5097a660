import GotoBasic.Operator
import GotoBasic.Pos
import GotoBasic.Binary64.Basic

/-!
# Expressions
-/

namespace GotoBasic

/-- An expression; every node has a position.  A binary node stands where its left operand
does. -/
inductive Expr where
  | int (pos : Pos) (n : Int)
  | float (pos : Pos) (x : Binary64)
  | bool (pos : Pos) (b : Bool)
  | string (pos : Pos) (s : String)
  | var (pos : Pos) (name : String)
  | unary (pos : Pos) (op : UnaryOp) (operand : Expr)
  | binary (pos : Pos) (op : BinaryOp) (left right : Expr)
  /-- A node without a form; only trees made by hand have it, and evaluating it is an error. -/
  | unknown (pos : Pos)
  deriving DecidableEq, Repr, Inhabited

def Expr.pos : Expr → Pos
  | .int p _ => p
  | .float p _ => p
  | .bool p _ => p
  | .string p _ => p
  | .var p _ => p
  | .unary p _ _ => p
  | .binary p _ _ _ => p
  | .unknown p => p

end GotoBasic
