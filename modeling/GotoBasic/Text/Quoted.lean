import GotoBasic.Text.Printable

/-!
# Quoted text

The one-line form in which messages show a string: it stands between quotes, and a character
that would break the line, end the quotes or not be seen is written as an escape.
-/

namespace GotoBasic.Text

/-- The hexadecimal digits of `n`, with zeros before them up to a width. -/
def hexPadded (width n : Nat) : List Char :=
  let ds := Nat.toDigits 16 n
  List.replicate (width - ds.length) '0' ++ ds

/-- The numeric escape of a character: two, four or eight digits, whichever is enough first. -/
def numericEscape (c : Char) : List Char :=
  let n := c.toNat
  if n < 0x100 then '\\' :: 'x' :: hexPadded 2 n
  else if n < 0x10000 then '\\' :: 'u' :: hexPadded 4 n
  else '\\' :: 'U' :: hexPadded 8 n

/-- One character of a text between the quotes `quote`. -/
def escapeChar (quote c : Char) : List Char :=
  if c = '\\' ∨ c = quote then ['\\', c]
  else if c = '\n' then ['\\', 'n']
  else if c = '\r' then ['\\', 'r']
  else if c = '\t' then ['\\', 't']
  else if isPrintable c then [c]
  else numericEscape c

/-- Apostrophes are the usual quotes; a text that has apostrophes and no quotation marks stands
between quotation marks instead. -/
def quoteFor (cs : List Char) : Char :=
  if '\'' ∈ cs ∧ '"' ∉ cs then '"' else '\''

/-- A text between quotes, with its escapes. -/
def quoted (s : String) : String :=
  let cs := s.toList
  let q := quoteFor cs
  String.ofList (q :: cs.flatMap (escapeChar q) ++ [q])

end GotoBasic.Text
