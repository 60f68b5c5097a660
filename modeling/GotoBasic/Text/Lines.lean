/-!
# Line ends

A text that comes from a file or a stream may end its lines with a carriage return and a line
feed, with a carriage return alone, or with a line feed.
-/

namespace GotoBasic.Text

/-- Writes every line end as a single line feed. -/
def unifyLineEnds : List Char → List Char
  | [] => []
  | '\r' :: '\n' :: cs => '\n' :: unifyLineEnds cs
  | '\r' :: cs => '\n' :: unifyLineEnds cs
  | c :: cs => c :: unifyLineEnds cs

/-- Cuts a text behind each line feed.  Every piece but the last ends with its line feed, and
no piece is empty. -/
def lines : List Char → List (List Char)
  | [] => []
  | c :: cs =>
    if c = '\n' then [c] :: lines cs
    else
      match lines cs with
      | [] => [[c]]
      | l :: ls => (c :: l) :: ls

/-- Drops one line feed at the end of a text, if there is one, and then one carriage return. -/
def chomp (cs : List Char) : List Char :=
  let dropLast (c : Char) (t : List Char) : List Char :=
    if t.getLast? = some c then t.dropLast else t
  dropLast '\r' (dropLast '\n' cs)

end GotoBasic.Text
