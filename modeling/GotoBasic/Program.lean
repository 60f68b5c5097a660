import GotoBasic.Assoc
import GotoBasic.Line

/-!
# Programs

A program is a list of lines no two of which have the same label.  Lines are numbered from one;
the number behind the last line is where the program ends, and the label `Label.exit` stands for
it.
-/

namespace GotoBasic

/-- The lines of a program in textual order. -/
structure Program where
  lines : List Line
  deriving DecidableEq, Repr

namespace Program

/-- The labels of lines with the lines' numbers, where the first line has the number `i`. -/
def labelsFrom : Nat → List Line → List (Label × Nat)
  | _, [] => []
  | i, l :: ls =>
    match l.label with
    | some a => (a, i) :: labelsFrom (i + 1) ls
    | none => labelsFrom (i + 1) ls

/-- The number of the place behind the last line. -/
def exitIndex (p : Program) : Nat := p.lines.length + 1

/-- All labels in textual order with the numbers they stand for, `Label.exit` included. -/
def labels (p : Program) : List (Label × Nat) :=
  Assoc.insert (labelsFrom 1 p.lines) Label.exit p.exitIndex

/-- The number that a label stands for, if it is a label of the program. -/
def position? (p : Program) (a : Label) : Option Nat := Assoc.get? p.labels a

/-- The first label in textual order. -/
def entry (p : Program) : Option Label := p.lines.findSome? (·.label)

/-- The number of the line where a run starts: the first one with a label, or the first of all
if none has one. -/
def entryIndex (p : Program) : Nat := (p.entry.bind p.position?).getD 1

/-- The line with a given number. -/
def line? (p : Program) (i : Nat) : Option Line := if i = 0 then none else p.lines[i - 1]?

end Program

/-! ## Building programs -/

/-- Two lines have the same label. -/
structure DuplicateLabel where
  label : Label
  /-- The line of the text on which the label stands first. -/
  firstLine : Int
  /-- The position of the second line with the label. -/
  pos : Pos
  deriving DecidableEq, Repr

namespace DuplicateLabel

/-- The wording of the error, without its position. -/
def cause (e : DuplicateLabel) : String :=
  "duplicate label " ++ e.label.shown ++ " (first declared at line " ++ toString e.firstLine ++ ")"

def message (e : DuplicateLabel) : String := e.cause ++ e.pos.suffix

end DuplicateLabel

namespace Program

/-- The first line whose label stands on an earlier line, where `before` are earlier lines. -/
def duplicate? (before : List Line) : List Line → Option DuplicateLabel
  | [] => none
  | l :: ls =>
    match l.label with
    | none => duplicate? before ls
    | some a =>
      match before.find? fun k => k.label = some a with
      | some k => some ⟨a, k.pos.line, l.pos⟩
      | none => duplicate? (l :: before) ls

/-- The program with the given lines. -/
def ofLines (ls : List Line) : Except DuplicateLabel Program :=
  match duplicate? [] ls with
  | some e => .error e
  | none => .ok ⟨ls⟩

end Program

end GotoBasic
