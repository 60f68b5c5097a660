/-!
# Source positions

A position is a line and a column, both counted from one in program text.  Columns count
characters, and a line feed is the only character that starts a new line.
-/

namespace GotoBasic

/-- A line and a column.  Text scanned from a program has both at least one; a tree or a token
made by hand may carry any integers. -/
structure Pos where
  line : Int
  col : Int
  deriving DecidableEq, Repr, Inhabited

/-- The position of the first character of a text. -/
def Pos.start : Pos := ⟨1, 1⟩

/-- The position right after the character `c` that stands at `p`. -/
def Pos.after (p : Pos) (c : Char) : Pos :=
  if c = '\n' then ⟨p.line + 1, 1⟩ else ⟨p.line, p.col + 1⟩

/-- The position right after the text `cs` that starts at `p`. -/
def Pos.afterAll (p : Pos) (cs : List Char) : Pos := cs.foldl Pos.after p

/-- The way a position is written behind a message. -/
def Pos.suffix (p : Pos) : String :=
  " at line " ++ toString p.line ++ " col " ++ toString p.col

@[simp] theorem Pos.afterAll_nil (p : Pos) : p.afterAll [] = p := rfl

@[simp] theorem Pos.afterAll_cons (p : Pos) (c : Char) (cs : List Char) :
    p.afterAll (c :: cs) = (p.after c).afterAll cs := rfl

end GotoBasic
