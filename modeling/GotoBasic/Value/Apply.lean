import GotoBasic.Fault
import GotoBasic.Value.Order

/-!
# Applying operators to values

Each operator has its own rule for the kinds it takes.  Two integers stay integers under every
numeric operator but division; a number that meets a float is first rounded to a float.
-/

namespace GotoBasic.Value

/-! ## Numbers -/

/-- A numeric operator on two integers, the second not zero if the operator divides.  Division
gives the float nearest to the exact quotient. -/
def arithInt (op : ArithOp) (a b : Int) : Except Cause Value :=
  match op with
  | .add => .ok (.int (a + b))
  | .sub => .ok (.int (a - b))
  | .mul => .ok (.int (a * b))
  | .quot => .ok (.int (a.tdiv b))
  | .div =>
    let x := Binary64.ofRatio ((a < 0) ^^ (b < 0)) a.natAbs b.natAbs
    if x.isFinite then .ok (.float x) else .error (.numericOverflow op)

/-- A numeric operator on two floats.  Only the whole quotient can fail, when there is none. -/
def arithFloat (op : ArithOp) (x y : Binary64) : Except Cause Value :=
  match op with
  | .add => .ok (.float (x.add y))
  | .sub => .ok (.float (x.sub y))
  | .mul => .ok (.float (x.mul y))
  | .div => .ok (.float (x.div y))
  | .quot =>
    match (x.div y).truncate? with
    | some n => .ok (.float (Binary64.ofInt n))
    | none => .error (.numericOverflow op)

/-- A number as a float.  An integer beyond the range of floats is an overflow of the operator
that asked. -/
def toFloat (op : ArithOp) : Value → Except Cause Binary64
  | .float x => .ok x
  | .int n =>
    let x := Binary64.ofInt n
    if x.isFinite then .ok x else .error (.numericOverflow op)
  | _ => .error (.numericOverflow op)

/-- Both zeros of the floats and the integer zero. -/
def isZero : Value → Bool
  | .int n => n == 0
  | .float x => x.isZero
  | _ => false

/-- A numeric operator on two numbers. -/
def arith (op : ArithOp) (v w : Value) : Except Cause Value :=
  if op.divides && w.isZero then .error .divisionByZero
  else
    match v, w with
    | .int a, .int b => arithInt op a b
    | _, _ => do
      let x ← v.toFloat op
      let y ← w.toFloat op
      arithFloat op x y

/-! ## All operators -/

/-- The display text of a value, or the fault that it has none. -/
def display (v : Value) : Except Cause String :=
  match v.display? with
  | some s => .ok s
  | none => .error (.tooLargeToDisplay v.kind)

/-- Whether `v` comes before `w`: numbers by size, strings by their code points. -/
def less? : Value → Value → Option Bool
  | .string s, .string t => some (s < t)
  | v, w => if v.kind.isNumeric && w.kind.isNumeric then some (v.numericLess w) else none

/-- An operator on the values of both its operands.  The logical operators look at their
operands one by one and have no rule here. -/
def binary (op : BinaryOp) (v w : Value) : Except Cause Value :=
  match op with
  | .eq => .ok (.bool (v.equals w))
  | .ne => .ok (.bool (!v.equals w))
  | .concat => do
    let s ← v.display
    let t ← w.display
    return .string (s ++ t)
  | .less =>
    match less? v w with
    | some b => .ok (.bool b)
    | none => .error (.unsupportedOperands op v.kind w.kind)
  | .greater =>
    match less? w v with
    | some b => .ok (.bool b)
    | none => .error (.unsupportedOperands op v.kind w.kind)
  | .arith a =>
    if v.kind.isNumeric && w.kind.isNumeric then arith a v w
    else .error (.unsupportedOperands op v.kind w.kind)
  | .and | .or | .other _ =>
    if v.kind.isNumeric && w.kind.isNumeric then .error (.unknownBinary op)
    else .error (.unsupportedOperands op v.kind w.kind)

theorem binary_arith_int (op : ArithOp) (a : Int) {b : Int} (nonzero : b ≠ 0) :
    binary (.arith op) (.int a) (.int b) = arithInt op a b := by
  simp [binary, kind, Kind.isNumeric, arith, isZero, nonzero]

/-- An operator on one value. -/
def unary : UnaryOp → Value → Except Cause Value
  | .neg, .int n => .ok (.int (-n))
  | .neg, .float x => .ok (.float x.neg)
  | .neg, v => .error (.cannotNegate v.kind)
  | .not, .bool b => .ok (.bool (!b))
  | .not, v => .error (.negationNeedsBool v.kind)
  | .other s, _ => .error (.unknownUnary (.other s))

end GotoBasic.Value
