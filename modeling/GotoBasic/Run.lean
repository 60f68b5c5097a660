import GotoBasic.Machine

/-!
# Runs

A run repeats single steps.  Since a program may run for ever, a run is given a number of steps
and says whether it came to an end within them; more steps never change an end that was reached.

* `Program.step` is one step of a whole program, `Program.run` its repetition.
* `Program.runStmts` runs the statements of a single line.
-/

namespace GotoBasic

/-! ## One line -/

/-- How the statements of a line ended. -/
inductive LineOutcome where
  /-- All statements ran, or a jump left the line. -/
  | ended (jumped : Bool) (m : Machine)
  | failed (fault : Fault) (m : Machine)
  /-- The steps did not suffice. -/
  | running (rest : List Stmt) (m : Machine)
  deriving DecidableEq, Repr

/-- Runs statements one after the other until one fails or leaves the line. -/
def Program.runStmts (p : Program) : Nat → List Stmt → Machine → LineOutcome
  | _, [], m => .ended false m
  | 0, rest, m => .running rest m
  | n + 1, s :: rest, m =>
    match s.step p m rest with
    | .ok (.next rest' m') => p.runStmts n rest' m'
    | .ok (.jump _ m') => .ended true m'
    | .error f => .failed f m

/-! ## Whole programs -/

/-- A program under way: the number of the current line, the statements of it that are still to
run, and the machine. -/
structure Config where
  index : Nat
  rest : List Stmt
  machine : Machine
  deriving DecidableEq, Repr

/-- The result of a step. -/
inductive Step where
  | next (c : Config)
  /-- The program has ended. -/
  | done (m : Machine)
  | failed (fault : Fault) (m : Machine)
  deriving DecidableEq, Repr

/-- Starts the line with number `i`, or ends the program if there is none. -/
def Program.enter (p : Program) (i : Nat) (m : Machine) : Step :=
  match p.line? i with
  | some l => .next ⟨i, l.stmts, { m with ip := none }.record (.lineStarted i l.label)⟩
  | none => .done m

/-- Starts the line that a label stands for. -/
def Program.follow (p : Program) (l : Label) (m : Machine) : Step :=
  let i := (p.position? l).getD p.exitIndex
  p.enter i (m.record (.jumped l i))

/-- One step of a program: a statement, with the change of line that it may bring, or the change
to the next line. -/
def Program.step (p : Program) (c : Config) : Step :=
  match c.rest with
  | [] => p.enter (c.index + 1) c.machine
  | s :: rest =>
    match s.step p c.machine rest with
    | .ok (.next rest' m) => .next ⟨c.index, rest', m⟩
    | .ok (.jump l m) => p.follow l m
    | .error f => .failed f c.machine

/-- How a run went. -/
inductive Outcome where
  | done (m : Machine)
  | failed (fault : Fault) (m : Machine)
  /-- The steps did not suffice. -/
  | running (c : Config)
  deriving DecidableEq, Repr

/-- The machine at the end of a run, or where its steps ran out. -/
def Outcome.machine : Outcome → Machine
  | .done m => m
  | .failed _ m => m
  | .running c => c.machine

/-- The fault that ended a run. -/
def Outcome.fault? : Outcome → Option Fault
  | .failed f _ => some f
  | _ => none

/-- Goes on from the result of a step with at most `n` more steps. -/
def Program.runFrom (p : Program) : Nat → Step → Outcome
  | _, .done m => .done m
  | _, .failed f m => .failed f m
  | 0, .next c => .running c
  | n + 1, .next c => p.runFrom n (p.step c)

/-- Runs a program from its entry with at most `n` steps. -/
def Program.run (p : Program) (n : Nat) (m : Machine) : Outcome :=
  p.runFrom n (p.enter p.entryIndex m)

/-- A run of more steps goes on where the first ones stopped, and an end that was reached
stays. -/
theorem Program.runFrom_add (p : Program) (n k : Nat) (s : Step) :
    p.runFrom (n + k) s =
      match p.runFrom n s with
      | .running c => p.runFrom k (.next c)
      | o => o := by
  induction n generalizing s with
  | zero => cases s <;> simp [runFrom]
  | succ n ih =>
    cases s with
    | next c =>
      rw [Nat.succ_add]
      exact ih (p.step c)
    | done m => simp [runFrom]
    | failed f m => simp [runFrom]

end GotoBasic
