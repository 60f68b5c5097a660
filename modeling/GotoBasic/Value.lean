import GotoBasic.Binary64.Decimal

/-!
# Values

A value has one of four kinds.  Its display text is what `PRINT` writes and what concatenation
joins.
-/

namespace GotoBasic

/-- A value of a running program.  Integers are unbounded. -/
inductive Value where
  | int (n : Int)
  | float (x : Binary64)
  | bool (b : Bool)
  | string (s : String)
  deriving DecidableEq, Repr, Inhabited

/-- The four kinds of values. -/
inductive Kind where
  | int
  | float
  | bool
  | string
  deriving DecidableEq, Repr

/-- The name of a kind in messages. -/
def Kind.name : Kind → String
  | .int => "int"
  | .float => "float"
  | .bool => "bool"
  | .string => "string"

/-- Integers and floats are numbers. -/
def Kind.isNumeric : Kind → Bool
  | .int => true
  | .float => true
  | _ => false

namespace Value

def kind : Value → Kind
  | .int _ => .int
  | .float _ => .float
  | .bool _ => .bool
  | .string _ => .string

/-- The display text.  Only an integer of too many digits has none. -/
def display? : Value → Option String
  | .int n => Decimal.text? n
  | .float x => some x.text
  | .bool b => some (if b then "true" else "false")
  | .string s => some s

end Value

end GotoBasic
