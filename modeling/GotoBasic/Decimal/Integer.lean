import GotoBasic.Decimal.Spelling

/-!
# Integers as decimal text

Reading and writing integers in base ten.  Both directions stop at the same size: text of more
than `digitLimit` digits is not read, and an integer of more than `digitLimit` digits is not
written.
-/

namespace GotoBasic.Decimal

/-- The most digits that a decimal text may have. -/
def digitLimit : Nat := 4300

/-- The number that a nonempty text of digits denotes.  Leading zeros count towards the limit. -/
def natOfDigits? (cs : List Char) : Option Nat :=
  if cs.isEmpty || !cs.all isDigit || digitLimit < cs.length then none
  else some (Nat.ofDigitChars 10 cs 0)

/-- The integer that an optionally signed text of digits denotes.  The sign does not count
towards the limit. -/
def intOfText? : List Char → Option Int
  | '-' :: ds => (natOfDigits? ds).map fun n => -(n : Int)
  | '+' :: ds => (natOfDigits? ds).map fun n => (n : Int)
  | ds => (natOfDigits? ds).map fun n => (n : Int)

/-- The integer that a text denotes in any spelling.  Low lines between digits do not count
towards the limit. -/
def integer? (cs : List Char) : Option Int := (plain? cs).bind intOfText?

/-- Whether an integer can be written: it has at most `digitLimit` digits. -/
def isWritable (n : Int) : Bool := n.natAbs < Nat.pow 10 digitLimit

/-- The digits of an integer behind its sign, without a limit. -/
def digits (n : Int) : List Char :=
  if n < 0 then '-' :: Nat.toDigits 10 n.natAbs else Nat.toDigits 10 n.natAbs

/-- The text of an integer, if it is not too long to be written. -/
def text? (n : Int) : Option String :=
  if isWritable n then some (String.ofList (digits n)) else none

/-- Whether a text is an optional minus sign and at least one digit. -/
def isIntegerText : List Char → Bool
  | '-' :: ds => !ds.isEmpty && ds.all isDigit
  | ds => !ds.isEmpty && ds.all isDigit

end GotoBasic.Decimal
