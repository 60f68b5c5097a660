import GotoBasic.Event
import GotoBasic.Expr.Eval
import GotoBasic.Program
import GotoBasic.Text.Lines

/-!
# The machine that runs statements

A machine holds the variables, the lines of input not yet read, the instruction pointer and a
record of what happened.  One statement is one step: it changes the machine and says how the line
goes on.  A statement that fails changes nothing.
-/

namespace GotoBasic

/-- The state of a run. -/
structure Machine where
  env : Env
  /-- What is still to be read; when nothing is left, reading gives the empty text. -/
  input : List String
  /-- The instruction pointer: where the last jump went, unless a line has started since. -/
  ip : Option Label
  /-- What happened, the latest first. -/
  trace : List Event
  deriving DecidableEq, Repr

namespace Machine

/-- A machine before any run. -/
def fresh : Machine := ⟨[], [], none, []⟩

def record (m : Machine) (e : Event) : Machine := { m with trace := e :: m.trace }

/-- Binds a variable. -/
def assign (m : Machine) (x : String) (v : Value) : Machine :=
  { m with env := m.env.set x v }.record (.assigned x v)

/-- Reads a line of input into a variable, without its line end. -/
def read (m : Machine) (x : String) : Machine :=
  let text := m.input.headD ""
  let line := String.ofList (Text.chomp text.toList)
  ({ m with input := m.input.tail }.record (.read text)).assign x (.string line)

/-- Writes a line. -/
def write (m : Machine) (s : String) : Machine := m.record (.wrote (s ++ "\n"))

/-- What happened, the earliest first. -/
def events (m : Machine) : List Event := m.trace.reverse

/-- What was written, one text for each write. -/
def output (m : Machine) : List String := m.events.filterMap Event.written?

/-- How often a line of input was asked for. -/
def reads (m : Machine) : Nat := m.trace.countP Event.isRead

end Machine

/-! ## Statements -/

/-- A label, provided that the program has it. -/
def Program.declared? (p : Program) (l : Label) : Option Label :=
  if (p.position? l).isSome then some l else none

/-- The label that a jump goes to: the target itself if the program has it, else the label that
the variable of the target's name holds. -/
def Program.resolve (p : Program) (env : Env) (target : Option Label) : Except Cause Label :=
  match target.bind p.declared? with
  | some l => .ok l
  | none =>
    let name := Label.textOf target
    match env.get? name with
    | none => .error (.undefinedLabel target)
    | some v =>
      match (Label.ofValue? v).bind p.declared? with
      | some l => .ok l
      | none => .error (.notALabel name)

/-- The truth of the condition of a statement. -/
def Expr.test (e : Expr) (statement : Conditional) (env : Env) : Except Fault Bool := do
  match ← e.eval env with
  | .bool b => return b
  | v => throw ⟨.conditionNotBool statement v.kind, e.pos⟩

/-- How a line goes on after a statement. -/
inductive Flow where
  /-- The statements `rest` are next. -/
  | next (rest : List Stmt) (m : Machine)
  /-- The line is left; the instruction pointer is set. -/
  | jump (target : Label) (m : Machine)
  deriving DecidableEq, Repr

/-- Sets the instruction pointer and leaves the line. -/
def Flow.leave (target : Label) (m : Machine) : Flow := .jump target { m with ip := some target }

/-- Runs a statement that the statements `rest` follow. -/
def Stmt.step (p : Program) (m : Machine) (rest : List Stmt) : Stmt → Except Fault Flow
  | .print pos e => do
    let v ← e.eval m.env
    let s ← Cause.locate pos v.display
    return .next rest (m.write s)
  | .input _ x => return .next rest (m.read x)
  | .assign _ x e => do
    let v ← e.eval m.env
    return .next rest (m.assign x v)
  | .ifThen _ cond body => do
    if ← cond.test .ifThen m.env then
      return .next (body :: rest) m
    else
      return .next rest m
  | .ifElse _ cond body other => do
    if ← cond.test .ifThen m.env then
      return .next (body :: rest) m
    else
      return .next (other :: rest) m
  | .whileThen pos cond body => do
    if ← cond.test .whileThen m.env then
      return .next (body :: .whileThen pos cond body :: rest) m
    else
      return .next rest m
  | .goto pos target => do
    let l ← Cause.locate pos (p.resolve m.env target)
    return Flow.leave l m
  | .exit _ => return Flow.leave Label.exit m
  | .nop _ => return .next rest m
  | .unknown pos => throw ⟨.unknownStatement, pos⟩

end GotoBasic
