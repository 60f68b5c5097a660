/-!
# Blank characters

The white space that is dropped around the text of a computed jump target.
-/

namespace GotoBasic.Text

/-- White space: tab to carriage return, the four separators before the space, the space, the
next-line control and the space separators beyond ASCII. -/
def isBlank (c : Char) : Bool :=
  let n := c.toNat
  (0x09 ≤ n && n ≤ 0x0D) || (0x1C ≤ n && n ≤ 0x20) || n == 0x85 || n == 0xA0 || n == 0x1680 ||
    (0x2000 ≤ n && n ≤ 0x200A) || n == 0x2028 || n == 0x2029 || n == 0x202F || n == 0x205F ||
    n == 0x3000

/-- Drops the characters of `p` at the end of a text. -/
def dropWhileEnd (p : Char → Bool) (cs : List Char) : List Char :=
  (cs.reverse.dropWhile p).reverse

/-- Drops the blank characters at both ends of a text and keeps those inside. -/
def strip (cs : List Char) : List Char := dropWhileEnd isBlank (cs.dropWhile isBlank)

end GotoBasic.Text
