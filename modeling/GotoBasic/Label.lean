import GotoBasic.Text.Blank
import GotoBasic.Text.Quoted
import GotoBasic.Value

/-!
# Line labels

A line is labelled by a number or by a name.  The number minus one is reserved for the place
behind the last line, where a program ends.
-/

namespace GotoBasic

/-- A line label. -/
inductive Label where
  | num (n : Int)
  | name (s : String)
  deriving DecidableEq, Repr, Inhabited

namespace Label

/-- The label of the place behind the last line. -/
def exit : Label := .num (-1)

/-- The label as a plain text: the digits of the number, or the name. -/
def text : Label → String
  | .num n => String.ofList (Decimal.digits n)
  | .name s => s

/-- The label as messages show it: a name stands between quotes. -/
def shown : Label → String
  | .num n => String.ofList (Decimal.digits n)
  | .name s => Text.quoted s

/-- The word for a label that is missing. -/
def missing : String := "None"

/-- A label that may be missing, as a plain text. -/
def textOf (l : Option Label) : String := (l.map text).getD missing

/-- A label that may be missing, as messages show it. -/
def shownOf (l : Option Label) : String := (l.map shown).getD missing

/-- The label that a value names.  An integer names a number.  A string is taken without the
blanks around it: decimal text names a number, unless it is too long to be read, and any other
text is a name.  Other values name nothing. -/
def ofValue? : Value → Option Label
  | .int n => some (.num n)
  | .string s =>
    let cs := Text.strip s.toList
    if Decimal.isIntegerText cs then (Decimal.intOfText? cs).map Label.num
    else some (.name (String.ofList cs))
  | _ => none

end Label

end GotoBasic
