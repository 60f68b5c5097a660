import GotoBasic.Proofs.Run.Names
import GotoBasic.Proofs.Run.Safety
import GotoBasic.Session

/-!
# Machines that share a program

Commands to one machine of a session leave the other machines and the program as they are.  So a
machine is what its own commands make of it, when no other machine is there
(`Session.machine_after`).

Of what a machine has done before, a run takes over only the variables and the input.  An
instruction pointer that an earlier command has left is reset before the first line starts, and is
never looked at before (`Program.run_set_ip`, `Command.run_sameRun`).
-/

namespace GotoBasic

/-! ## Histories -/

/-- What is done in a session: one more machine is made, or a machine gets a command, which may
take a number of steps. -/
inductive Operation where
  | extend
  | command (who steps : Nat) (c : Command)
  deriving DecidableEq, Repr

namespace Operation

/-- Commands go to machines that are there; the first is done when there are `k` machines. -/
def Fit : Nat → List Operation → Prop
  | _, [] => True
  | k, .extend :: ops => Fit (k + 1) ops
  | k, .command who _ _ :: ops => who < k ∧ Fit k ops

instance decidableFit : (k : Nat) → (ops : List Operation) → Decidable (Fit k ops)
  | _, [] => inferInstanceAs (Decidable True)
  | k, .extend :: ops => decidableFit (k + 1) ops
  | k, .command who _ _ :: ops =>
    have := decidableFit k ops
    inferInstanceAs (Decidable (who < k ∧ Fit k ops))

/-- The command that a machine is given, if any, and the steps that it may take. -/
def givenTo? (who : Nat) : Operation → Option (Nat × Command)
  | .extend => none
  | .command w n c => if w = who then some (n, c) else none

end Operation

/-- A machine after commands, if it is the only one. -/
def Machine.afterCommands (p : Program) (m : Machine) (cs : List (Nat × Command)) : Machine :=
  cs.foldl (fun m c => (c.2.perform p c.1 { m with trace := [] }).2) m

namespace Session

/-- The session after an operation. -/
def apply (s : Session) : Operation → Session
  | .extend => s.extend
  | .command who n c => (s.perform n who c).2

/-- The session after operations. -/
def after (s : Session) (ops : List Operation) : Session := ops.foldl apply s

variable {s : Session} {who : Nat}

theorem program_after (s : Session) (ops : List Operation) : (s.after ops).program = s.program := by
  induction ops generalizing s with
  | nil => rfl
  | cons op ops ih =>
    have kept : (s.apply op).program = s.program := by
      cases op with
      | extend => rfl
      | command who n c => rfl
    exact (ih (s.apply op)).trans kept

theorem machine_extend (s : Session) (who : Nat) : s.extend.machine who = s.machine who := by
  unfold machine extend
  dsimp only
  rw [List.getD_eq_getElem?_getD, List.getD_eq_getElem?_getD, List.getElem?_append]
  split
  · rfl
  next beyond =>
    rw [List.getElem?_eq_none (Nat.not_lt.1 beyond)]
    cases who - s.machines.length with
    | zero => rfl
    | succ k => rfl

theorem machine_perform (there : who < s.machines.length) (n : Nat) (c : Command) :
    (s.perform n who c).2.machine who =
      (c.perform s.program n { s.machine who with trace := [] }).2 := by
  change (s.machines.set who _).getD who Machine.fresh = _
  rw [List.getD_eq_getElem?_getD, List.getElem?_set_self there]
  rfl

/-- A machine does not notice commands to others. -/
theorem machine_perform_of_ne {other : Nat} (differ : other ≠ who) (n : Nat) (c : Command) :
    (s.perform n other c).2.machine who = s.machine who := by
  change (s.machines.set other _).getD who Machine.fresh = s.machines.getD who Machine.fresh
  rw [List.getD_eq_getElem?_getD, List.getElem?_set_ne differ, ← List.getD_eq_getElem?_getD]

theorem length_machines_perform (s : Session) (n who : Nat) (c : Command) :
    (s.perform n who c).2.machines.length = s.machines.length :=
  List.length_set

/-- A machine is what its own commands make of it. -/
theorem machine_after {ops : List Operation} (fit : Operation.Fit s.machines.length ops)
    (who : Nat) :
    (s.after ops).machine who =
      (s.machine who).afterCommands s.program (ops.filterMap (Operation.givenTo? who)) := by
  induction ops generalizing s with
  | nil => rfl
  | cons op ops ih =>
    cases op with
    | extend =>
      have more : Operation.Fit s.extend.machines.length ops := by
        unfold extend
        rw [List.length_append]
        exact fit
      refine (ih more).trans ?_
      rw [machine_extend]
      rfl
    | command w n c =>
      rcases fit with ⟨there, rest⟩
      have more : Operation.Fit (s.perform n w c).2.machines.length ops := by
        rw [length_machines_perform]
        exact rest
      refine (ih more).trans ?_
      by_cases own : w = who
      · subst own
        have given : Operation.givenTo? w (.command w n c) = some (n, c) := if_pos rfl
        rw [machine_perform there, List.filterMap_cons_some given]
        rfl
      · have given : Operation.givenTo? who (.command w n c) = none := if_neg own
        rw [machine_perform_of_ne own, List.filterMap_cons_none given]
        rfl

end Session

/-! ## Runs -/

/-- The machine `f` has done nothing yet, and it has the variables and the input of `m`. -/
structure Machine.Renewed (m f : Machine) : Prop where
  env : ∀ x, f.env.get? x = m.env.get? x
  input : f.input = m.input
  ip : f.ip = none
  trace : f.trace = []

/-- Two runs, each told by its answer and the machine that it leaves, cannot be told apart, except
by the instruction pointer where no line was started. -/
structure SameRun (r r' : Reply × Machine) : Prop where
  reply : r'.1 = r.1
  events : r'.2.events = r.2.events
  output : r'.2.output = r.2.output
  reads : r'.2.reads = r.2.reads
  input : r'.2.input = r.2.input
  env : ∀ x, r'.2.env.get? x = r.2.env.get? x
  ip : (∃ i l, .lineStarted i l ∈ r.2.events) → r'.2.ip = r.2.ip

namespace Program

variable {p : Program}

theorem spares_of_not_mem_names {x : String} (absent : x ∉ p.names) : p.Spares x := by
  intro l mem s part assigns
  have named : x ∈ s.names := by
    cases s with
    | input pos y | assign pos y e =>
      cases assigns
      exact List.mem_cons_self
    | _ => cases assigns
  exact absent (List.mem_flatMap.2 ⟨l, mem, List.mem_flatMap.2 ⟨s, part, named⟩⟩)

/-- If a run starts a line, then the instruction pointer before does not count. -/
theorem run_set_ip {l : Line} (starts : p.line? p.entryIndex = some l) (n : Nat) (m : Machine)
    (ip : Option Label) : p.run n { m with ip := ip } = p.run n m := by
  unfold run enter
  rw [starts]

theorem run_of_no_line (starts : p.line? p.entryIndex = none) (n : Nat) (m : Machine) :
    p.run n m = .done m := by
  unfold run enter
  rw [starts]
  cases n <;> rfl

/-- Runs from the same variables, in whatever order they have been bound, end with the same
variables. -/
theorem run_get?_congr {m m' : Machine} (agree : m.AgreesOn p.names m')
    (same : ∀ x, m'.env.get? x = m.env.get? x) (n : Nat) (x : String) :
    (p.run n m').machine.env.get? x = (p.run n m).machine.env.get? x := by
  by_cases named : x ∈ p.names
  · exact (run_agrees agree n).env x named
  · have spares := spares_of_not_mem_names named
    rw [(p.run_keeps n m').spared x spares, (p.run_keeps n m).spared x spares, same]

end Program

namespace Command

/-- The answer to a command that has run the program. -/
def replyOf : Ending → Reply
  | .running => .running
  | .done => .done
  | .failed f => .failed f

theorem perform_run (p : Program) (n : Nat) (m : Machine) :
    Command.run.perform p n m = (replyOf (p.run n m).ending, (p.run n m).machine) := by
  unfold perform
  cases p.run n m <;> rfl

/-- A run takes over nothing but the variables and the input. -/
theorem run_sameRun (p : Program) (n : Nat) {m f : Machine} (renewed : m.Renewed f) :
    SameRun (Command.run.perform p n f) (Command.run.perform p n { m with trace := [] }) := by
  rw [perform_run, perform_run]
  cases starts : p.line? p.entryIndex with
  | none =>
    rw [Program.run_of_no_line starts, Program.run_of_no_line starts]
    refine ⟨rfl, congrArg List.reverse renewed.trace.symm, ?_, ?_, renewed.input.symm,
      fun x => (renewed.env x).symm, ?_⟩
    · exact congrArg (fun t => t.reverse.filterMap Event.written?) renewed.trace.symm
    · exact congrArg (List.countP Event.isRead) renewed.trace.symm
    · rintro ⟨i, l, mem⟩
      have unused : f.events = [] := congrArg List.reverse renewed.trace
      change _ ∈ f.events at mem
      rw [unused] at mem
      cases mem
  | some l =>
    -- Once the instruction pointer of `m` is out of the way, the machines agree on all that counts.
    have reset := Program.run_set_ip starts n { m with trace := [] } none
    have agree : Machine.AgreesOn p.names f { m with trace := [], ip := none } :=
      ⟨fun x _ => (renewed.env x).symm, renewed.input.symm, renewed.ip.symm, renewed.trace.symm⟩
    have agrees := Program.run_agrees agree n
    have vars := Program.run_get?_congr agree (fun x => (renewed.env x).symm) n
    rw [← reset]
    exact ⟨congrArg replyOf agrees.ending, agrees.events,
      congrArg (List.filterMap Event.written?) agrees.events, agrees.reads, agrees.input, vars,
      fun _ => agrees.ip⟩

end Command

/-! ## Sessions -/

/-- In a session the program stays what it is, and a machine is what its own commands make of it.
Whatever has been done, a run of a machine is the run of a fresh machine with the same variables and
the same input, and a checked run, which asks the instruction pointer where to go after each line,
is the same run. -/
theorem session_run_from_variables {source : String} {p : Program} (loads : load source = .ok p)
    {ops : List Operation} (fit : Operation.Fit 1 ops) :
    let s := (Session.start p).after ops
    s.program = p ∧
      (∀ who, s.machine who =
        Machine.fresh.afterCommands p (ops.filterMap (Operation.givenTo? who))) ∧
      ∀ who < s.machines.length, ∀ n,
        (∀ f, (s.machine who).Renewed f →
          SameRun (Command.run.perform p n f)
            ((s.perform n who .run).1, (s.perform n who .run).2.machine who)) ∧
        Checked.run p n { s.machine who with trace := [] } =
          .ok (p.run n { s.machine who with trace := [] }) := by
  intro s
  have program : s.program = p := Session.program_after (Session.start p) ops
  refine ⟨program, fun who => ?_, fun who there n => ⟨fun f renewed => ?_, ?_⟩⟩
  · have fresh : (Session.start p).machine who = Machine.fresh := by
      cases who with
      | zero => rfl
      | succ k => rfl
    have own := Session.machine_after (s := Session.start p) fit who
    rw [fresh] at own
    exact own
  · have result : ((s.perform n who .run).1, (s.perform n who .run).2.machine who) =
        Command.run.perform s.program n { s.machine who with trace := [] } :=
      Prod.ext rfl (Session.machine_perform there n .run)
    rw [result, program]
    exact Command.run_sameRun p n renewed
  · exact Checked.run_eq (Program.writable_of_load loads) n _

/-- Two machines, the first of which fails half-way, then jumps to a line on its own, and runs
again. -/
theorem session_run_after_failure :
    ∃ p ops s, load "10 LET x = x + 1\n20 PRINT 6 | (x - 2)" = .ok p ∧ Operation.Fit 1 ops ∧
      (Session.start p).after ops = s ∧ (s.machine 0).ip = some (.num 20) ∧
      (s.machine 0).env = [("x", .int 2)] ∧
      (Command.run.perform p 9 { Machine.fresh with env := [("x", .int 2)] }).2.output = ["6\n"] ∧
      SameRun (Command.run.perform p 9 { Machine.fresh with env := [("x", .int 2)] })
        ((s.perform 9 0 .run).1, (s.perform 9 0 .run).2.machine 0) := by
  let ops : List Operation := [.command 0 0 (.set "x" (.int 1)), .extend, .command 0 9 .run,
    .command 1 0 (.set "x" (.int 7)), .command 0 9 (.exec "GOTO 20"), .command 1 9 .run,
    .command 1 9 (.eval "x | 0")]
  rcases exists_load
    (P := fun p => ((Session.start p).after ops).machines.length = 2 ∧
      (((Session.start p).after ops).machine 0).ip = some (.num 20) ∧
      (((Session.start p).after ops).machine 0).env = [("x", .int 2)] ∧
      (((Session.start p).after ops).machine 0).input = [] ∧
      (Command.run.perform p 9 { Machine.fresh with env := [("x", .int 2)] }).2.output = ["6\n"])
    "10 LET x = x + 1\n20 PRINT 6 | (x - 2)" (by decide +kernel) with
    ⟨p, loads, count, leftover, vars, unread, prints⟩
  have fit : Operation.Fit 1 ops := by decide
  rcases session_run_from_variables loads fit with ⟨-, -, runs⟩
  refine ⟨p, ops, _, loads, fit, rfl, leftover, vars, prints, ?_⟩
  generalize (Session.start p).after ops = s at count vars unread runs ⊢
  have there : 0 < s.machines.length := by
    rw [count]
    decide
  have renewed : (s.machine 0).Renewed { Machine.fresh with env := [("x", .int 2)] } :=
    ⟨fun x => congrArg (Env.get? · x) vars.symm, unread.symm, rfl, rfl⟩
  exact (runs 0 there 9).1 _ renewed

end GotoBasic
