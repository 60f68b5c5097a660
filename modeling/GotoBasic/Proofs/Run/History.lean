import GotoBasic.Proofs.Run.OnLine

/-!
# What a run leaves behind

A run only adds to the record of what happened.  A variable that it has not assigned, as this record
tells, is what it was before the run, and one that it has assigned is bound (`Program.run_later`).
A variable that no statement of the program assigns stays what it is (`Program.step_spares`).
-/

namespace GotoBasic

/-- `m'` has come from `m` by the events `new`, the latest of which is the first. -/
structure Machine.After (m : Machine) (new : List Event) (m' : Machine) : Prop where
  trace : m'.trace = new ++ m.trace
  kept : ∀ x, (∀ v, .assigned x v ∉ new) → m'.env.get? x = m.env.get? x
  bound : ∀ x v, .assigned x v ∈ new → (m'.env.get? x).isSome

/-- `m'` has come from `m`. -/
def Machine.Later (m m' : Machine) : Prop := ∃ new, m.After new m'

namespace Machine.Later

variable {m m' m'' : Machine}

/-- A machine has come from itself, by no events. -/
theorem refl (m : Machine) : m.Later m :=
  ⟨[], rfl, fun _ _ => rfl, fun _ _ mem => nomatch mem⟩

/-- What has happened later counts: a variable is what the later events have made of it, or else
what the earlier ones have. -/
theorem trans (later : m.Later m') (later' : m'.Later m'') : m.Later m'' := by
  rcases later with ⟨new, after⟩
  rcases later' with ⟨new', after'⟩
  refine ⟨new' ++ new, by rw [after'.trace, after.trace, List.append_assoc], ?_, ?_⟩
  · intro x never
    rw [after'.kept x fun v mem => never v (List.mem_append_left _ mem),
      after.kept x fun v mem => never v (List.mem_append_right _ mem)]
  · intro x v mem
    by_cases again : ∃ w, .assigned x w ∈ new'
    · rcases again with ⟨w, mem'⟩
      exact after'.bound x w mem'
    · rcases List.mem_append.1 mem with mem' | mem
      · exact absurd ⟨v, mem'⟩ again
      · rw [after'.kept x fun w mem' => again ⟨w, mem'⟩]
        exact after.bound x v mem

/-- An event that is not an assignment leaves the variables as they are. -/
theorem record {e : Event} (silent : ∀ x v, e ≠ .assigned x v) (env : m'.env = m.env)
    (trace : m'.trace = m.trace) : m.Later (m'.record e) := by
  refine ⟨[e], congrArg (e :: ·) trace, fun x _ => congrArg (Env.get? · x) env, ?_⟩
  intro x v mem
  exact absurd (List.mem_singleton.1 mem).symm (silent x v)

/-- Setting a variable records that, binds it and leaves all other variables alone. -/
theorem assign (m : Machine) (x : String) (v : Value) : m.Later (m.assign x v) := by
  refine ⟨[.assigned x v], rfl, fun y never => ?_, fun y w mem => ?_⟩
  · change (m.env.set x v).get? y = _
    rw [Env.get?_set, if_neg]
    intro same
    exact never v (by rw [same]; exact List.mem_singleton_self _)
  · cases List.mem_singleton.1 mem
    change ((m.env.set x v).get? x).isSome
    rw [Env.get?_set, if_pos rfl]
    rfl

/-- Reading is taking a line of input, which changes no variable, and then setting the variable. -/
theorem read (m : Machine) (x : String) : m.Later (m.read x) := by
  unfold Machine.read
  have taken : m.Later ({ m with input := m.input.tail }.record (.read (m.input.headD ""))) :=
    record (fun _ _ same => by cases same) rfl rfl
  exact taken.trans (assign _ x _)

/-- In the order of time the new events stand behind the old ones. -/
theorem events_eq {new : List Event} (after : m.After new m') :
    m'.events = m.events ++ new.reverse := by
  unfold Machine.events
  rw [after.trace, List.reverse_append]

/-- The record of a run only grows: what has happened stays on record. -/
theorem isPrefix_events (later : m.Later m') : m.events <+: m'.events := by
  rcases later with ⟨new, after⟩
  exact ⟨new.reverse, (events_eq after).symm⟩

/-- What has been assigned is bound. -/
theorem isSome_of_assigned {new : List Event} {x : String} {v : Value} (later : m.Later m')
    (events : m'.events = m.events ++ new) (mem : .assigned x v ∈ new) :
    (m'.env.get? x).isSome := by
  rcases later with ⟨new', after⟩
  rw [events_eq after] at events
  have same : new'.reverse = new := List.append_cancel_left events
  refine after.bound x v (List.mem_reverse.1 ?_)
  rw [same]
  exact mem

end Machine.Later

/-! ## Runs -/

/-- The machine that a step has led to. -/
def Step.machine : Step → Machine
  | .next c => c.machine
  | .done m => m
  | .failed _ m => m

namespace Program

variable {p : Program}

/-- Starting a line records that and changes no variable. -/
theorem enter_later (p : Program) (i : Nat) (m : Machine) : m.Later (p.enter i m).machine := by
  unfold enter
  cases p.line? i with
  | none => exact .refl m
  | some l => exact .record (fun _ _ same => by cases same) rfl rfl

/-- What a statement does adds its event to the record, and a jump adds those of the jump and of the
line it goes to. -/
theorem goOn_later (i : Nat) (m : Machine) (rest : List Stmt) (a : Action) :
    m.Later (p.goOn i (a.perform m rest)).machine := by
  cases a with
  | pass front => exact .refl m
  | write s => exact .record (fun _ _ same => by cases same) rfl rfl
  | read x => exact .read m x
  | assign x v => exact .assign m x v
  | leave l =>
    have jumped : m.Later ({ m with ip := some l }.record
        (.jumped l ((p.position? l).getD p.exitIndex))) :=
      .record (fun _ _ same => by cases same) rfl rfl
    exact jumped.trans (p.enter_later _ _)

/-- One step only adds to the record, also one that fails. -/
theorem step_later (p : Program) (c : Config) : c.machine.Later (p.step c).machine := by
  rcases p.step_cases c with ⟨i, m, rfl, step⟩ | ⟨i, s, rest, m, f, rfl, -, step⟩ |
    ⟨i, s, rest, m, a, rfl, -, step⟩
  · rw [step]
    exact p.enter_later _ m
  · rw [step]
    exact .refl m
  · rw [step]
    exact goOn_later i m rest a

/-- By induction over the steps of the run, each of which only adds to the record. -/
theorem runFrom_later (p : Program) (n : Nat) (s : Step) :
    s.machine.Later (p.runFrom n s).machine := by
  fun_induction p.runFrom n s with
  | case1 n m => exact .refl m
  | case2 n f m => exact .refl m
  | case3 c => exact .refl c.machine
  | case4 n c ih => exact (p.step_later c).trans ih

/-- A run only adds to the record of the machine that it was started on, whether it ends or not. -/
theorem run_later (p : Program) (n : Nat) (m : Machine) : m.Later (p.run n m).machine :=
  (p.enter_later _ m).trans (p.runFrom_later n _)

/-! ## Variables that the program does not assign -/

/-- No statement of the program assigns the variable `x`. -/
def Spares (p : Program) (x : String) : Prop :=
  ∀ l ∈ p.lines, ∀ s ∈ l.parts, s.assigned? ≠ some x

instance (p : Program) (x : String) : Decidable (p.Spares x) :=
  inferInstanceAs (Decidable (∀ l ∈ p.lines, ∀ s ∈ l.parts, s.assigned? ≠ some x))

/-- Starting a line changes no variable. -/
theorem get?_enter (i : Nat) (m : Machine) (x : String) :
    (p.enter i m).machine.env.get? x = m.env.get? x := by
  unfold enter
  cases p.line? i with
  | none => rfl
  | some l => rfl

/-- An action leaves every variable alone but the one that it assigns. -/
theorem get?_goOn (i : Nat) (m : Machine) (rest : List Stmt) {a : Action} {x : String}
    (other : a.assigned? ≠ some x) :
    (p.goOn i (a.perform m rest)).machine.env.get? x = m.env.get? x := by
  have set {y : String} (v : Value) (differ : some y ≠ some x) (env : Env) :
      (env.set y v).get? x = env.get? x := by
    rw [Env.get?_set, if_neg fun same => differ (congrArg some same)]
  cases a with
  | pass front => rfl
  | write s => rfl
  | read y => exact set _ other m.env
  | assign y v => exact set v other m.env
  | leave l => exact get?_enter _ _ x

/-- No step changes a variable that no statement of the program assigns.  The statement of the step
is one of the program since the machine is on one of its lines. -/
theorem step_spares {c : Config} {x : String} (spares : p.Spares x) (onLine : p.OnLine c) :
    (p.step c).machine.env.get? x = c.machine.env.get? x := by
  rcases p.step_cases c with ⟨i, m, rfl, step⟩ | ⟨i, s, rest, m, f, rfl, -, step⟩ |
    ⟨i, s, rest, m, a, rfl, decides, step⟩
  · rw [step]
    exact get?_enter _ m x
  · rw [step]
    rfl
  · rw [step]
    refine get?_goOn i m rest ?_
    rw [Stmt.assigned?_eq_of_action decides]
    rcases onLine.exists_mem_parts rfl with ⟨l, mem, part⟩
    exact spares l mem s part

end Program

end GotoBasic
