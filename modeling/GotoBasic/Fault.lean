import GotoBasic.Label
import GotoBasic.Operator
import GotoBasic.Pos

/-!
# Run-time faults

Why a running program stops early, and how that is worded.
-/

namespace GotoBasic

/-- The statements that test a condition. -/
inductive Conditional where
  | ifThen
  | whileThen
  deriving DecidableEq, Repr

def Conditional.keyword : Conditional → String
  | .ifThen => "IF"
  | .whileThen => "WHILE"

/-- The cause of a run-time fault. -/
inductive Cause where
  | undefinedVariable (name : String)
  | undefinedLabel (target : Option Label)
  /-- A jump goes through a variable whose value names no line. -/
  | notALabel (name : String)
  | conditionNotBool (statement : Conditional) (kind : Kind)
  | unsupportedOperands (op : BinaryOp) (left right : Kind)
  | unknownBinary (op : BinaryOp)
  | unknownUnary (op : UnaryOp)
  | divisionByZero
  | numericOverflow (op : ArithOp)
  | tooLargeToDisplay (kind : Kind)
  | cannotNegate (kind : Kind)
  | negationNeedsBool (kind : Kind)
  | logicNeedsBool (op : BinaryOp) (kind : Kind)
  | unknownExpression
  | unknownStatement
  deriving DecidableEq, Repr

/-- The wording of a cause, without a position. -/
def Cause.message : Cause → String
  | .undefinedVariable x => "undefined variable '" ++ x ++ "'"
  | .undefinedLabel l => "undefined label " ++ Label.shownOf l
  | .notALabel x => "variable '" ++ x ++ "' does not hold a defined label"
  | .conditionNotBool s k => s.keyword ++ " condition is " ++ k.name ++ ", not bool"
  | .unsupportedOperands op l r =>
    "operator '" ++ op.symbol ++ "' not supported between " ++ l.name ++ " and " ++ r.name
  | .unknownBinary op => "unknown operator '" ++ op.symbol ++ "'"
  | .unknownUnary op => "unknown unary operator '" ++ op.symbol ++ "'"
  | .divisionByZero => "division by zero"
  | .numericOverflow op => "numeric overflow in operator '" ++ op.symbol ++ "'"
  | .tooLargeToDisplay k => k.name ++ " too large to display"
  | .cannotNegate k => "cannot negate " ++ k.name
  | .negationNeedsBool k => "operator '!' needs bool, got " ++ k.name
  | .logicNeedsBool op k => "operator '" ++ op.symbol ++ "' needs bool, got " ++ k.name
  | .unknownExpression => "unknown expression Expr"
  | .unknownStatement => "unknown statement Stmt"

/-- A cause and the place in the program where it arose. -/
structure Fault where
  cause : Cause
  pos : Pos
  deriving DecidableEq, Repr

/-- The wording of a fault. -/
def Fault.message (f : Fault) : String := f.cause.message ++ f.pos.suffix

end GotoBasic
