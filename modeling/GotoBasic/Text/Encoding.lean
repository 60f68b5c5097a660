import GotoBasic.Text.Lines

/-!
# Text in bytes
-/

namespace GotoBasic.Text

/-- The text that bytes encode, if they are well-formed UTF-8.  All line ends stay as they are,
and so does a byte order mark. -/
def decode? (bytes : List UInt8) : Option String := String.fromUTF8? ⟨bytes.toArray⟩

/-- The text that bytes encode, with every line end made a line feed. -/
def decodeLines? (bytes : List UInt8) : Option String :=
  (decode? bytes).map fun s => String.ofList (unifyLineEnds s.toList)

end GotoBasic.Text
