import GotoBasic.Value

/-!
# Comparing numbers

Integers and floats are compared as points of one line, without rounding either.  Points are
counted in the units of `Binary64`, so that every integer and every finite float is a whole
count.  The one float that is not a number has no place on the line: it equals nothing and
precedes nothing.
-/

namespace GotoBasic

/-- A point of the number line with its two ends. -/
inductive Point where
  | leftEnd
  | units (z : Int)
  | rightEnd
  deriving DecidableEq, Repr

namespace Point

/-- Whether one point lies strictly left of another. -/
def precedes : Point → Point → Bool
  | .leftEnd, .leftEnd => false
  | .leftEnd, _ => true
  | .units _, .leftEnd => false
  | .units a, .units b => a < b
  | .units _, .rightEnd => true
  | .rightEnd, _ => false

end Point

namespace Value

/-- The place of a number on the line. -/
def point? : Value → Option Point
  | .int n => some (.units (n * Binary64.one))
  | .float (.finite s u) => some (.units (Binary64.signed s u))
  | .float (.infinite s) => some (if s then .leftEnd else .rightEnd)
  | _ => none

/-- Whether the number `v` is strictly less than the number `w`. -/
def numericLess (v w : Value) : Bool :=
  match v.point?, w.point? with
  | some p, some q => p.precedes q
  | _, _ => false

/-- Whether two numbers are the same point. -/
def numericEq (v w : Value) : Bool :=
  match v.point?, w.point? with
  | some p, some q => p == q
  | _, _ => false

/-- Equality of values: of numbers by their points, of all else by kind and content. -/
def equals (v w : Value) : Bool :=
  if v.kind.isNumeric && w.kind.isNumeric then v.numericEq w else v == w

end Value

end GotoBasic
