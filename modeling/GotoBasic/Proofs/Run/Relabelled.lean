import GotoBasic.Proofs.Program.Relabelled
import GotoBasic.Proofs.Run.ControlFlow
import GotoBasic.Proofs.Run.Effect
import GotoBasic.Proofs.Run.Lockstep

/-!
# Labels are only names

If every jump of a program goes to a label that stands before one of its lines, then other labels
change nothing but the labels themselves: the new program starts the same lines, writes, reads and
assigns the same, and ends in the same way (`Program.run_relabelled`).  Statements decide the same
up to labels (`Stmt.action_relabelled`).  As jumps find their own targets, no variable is asked for
a label, whatever the variables are called.
-/

namespace GotoBasic

variable {r : Label → Label}

/-- The action with other labels. -/
def Action.relabelled (r : Label → Label) : Action → Action
  | .pass front => .pass (front.map (Stmt.relabelled r))
  | .leave a => .leave (a.relabelled r)
  | a => a

/-- The event with other labels. -/
def Event.relabelled (r : Label → Label) : Event → Event
  | .lineStarted i label => .lineStarted i (label.map r)
  | .jumped a i => .jumped (a.relabelled r) i
  | e => e

/-! ## Decisions -/

section Decisions

variable {p : Program} (relabels : Program.Relabels r p)

include relabels

/-- A jump to a label of a line goes there, under the label's old name and under its new one. -/
theorem Program.resolve_relabelled (free : ∀ l ∈ p.lines, l.label ≠ some Label.exit) (env : Env)
    {target : Option Label} (lands : ∃ l ∈ p.lines, l.label.isSome ∧ l.label = target) :
    ∃ a ∈ p.declared, p.resolve env target = .ok a ∧
      (p.relabelled r).resolve env (target.map r) = .ok (a.relabelled r) := by
  rcases lands with ⟨l, mem, labelled, rfl⟩
  rcases Option.isSome_iff_exists.1 labelled with ⟨a, label⟩
  have other : a ≠ Label.exit := by
    intro same
    exact free l mem (label.trans (congrArg some same))
  have has := isSome_position?_of_mem mem label
  have has' := has
  rw [← position?_relabelled relabels (.inr (mem_declared mem label))] at has'
  rw [label]
  refine ⟨a, mem_declared mem label, resolve_of_isSome has env, ?_⟩
  have name : a.relabelled r = r a := Label.relabelled_of_ne other
  rw [Option.map_some, ← name]
  exact resolve_of_isSome has' env

/-- Statements decide the same, up to labels. -/
theorem Stmt.action_relabelled (free : ∀ l ∈ p.lines, l.label ≠ some Label.exit) (env : Env)
    {s : Stmt} (lands : s.LandsIn p) :
    (s.relabelled r).action (p.relabelled r) env =
      (s.action p env).map (Action.relabelled r) := by
  cases s with
  | print pos e => exact bind_eq_map fun v => bind_eq_map fun _ => rfl
  | assign pos x e => exact bind_eq_map fun _ => rfl
  | ifThen pos cond body | ifElse pos cond body other | whileThen pos cond body =>
    refine bind_eq_map fun b => ?_
    cases b <;> rfl
  | goto pos target =>
    rcases Program.resolve_relabelled relabels free env lands with ⟨a, -, resolves, resolves'⟩
    change (Cause.locate pos ((p.relabelled r).resolve env (target.map r)) >>= _) =
      (Cause.locate pos (p.resolve env target) >>= _).map _
    rw [resolves, resolves']
    rfl
  | exit pos =>
    change Except.ok (Action.leave Label.exit) = .ok (.leave (Label.exit.relabelled r))
    rw [Label.relabelled_exit]
  | _ => rfl

/-- What a closed program leaves a line for is one of its labels, or the reserved one. -/
theorem Stmt.known_of_action_leave (free : ∀ l ∈ p.lines, l.label ≠ some Label.exit) {env : Env}
    {s : Stmt} {a : Label} (lands : s.LandsIn p) (decides : s.action p env = .ok (.leave a)) :
    a = Label.exit ∨ a ∈ p.declared := by
  rcases Stmt.of_action_leave decides with ⟨pos, target, rfl, resolves⟩ | ⟨pos, rfl, rfl⟩
  · rcases Program.resolve_relabelled relabels free env lands with ⟨b, declared, resolves', -⟩
    rw [resolves] at resolves'
    cases resolves'
    exact .inr declared
  · exact .inl rfl

end Decisions

/-! ## Machines -/

/-- Machines that differ in labels only. -/
structure Machine.Relabelled (r : Label → Label) (m m' : Machine) : Prop where
  env : m'.env = m.env
  input : m'.input = m.input
  ip : m'.ip = m.ip.map (Label.relabelled r)
  trace : m'.trace = m.trace.map (Event.relabelled r)

namespace Machine.Relabelled

variable {m m' : Machine}

theorem record (same : m.Relabelled r m') (e : Event) :
    (m.record e).Relabelled r (m'.record (e.relabelled r)) :=
  ⟨same.env, same.input, same.ip, congrArg (e.relabelled r :: ·) same.trace⟩

theorem set_ip (same : m.Relabelled r m') (a : Option Label) :
    Relabelled r { m with ip := a } { m' with ip := a.map (Label.relabelled r) } :=
  ⟨same.env, same.input, rfl, same.trace⟩

theorem carries (r : Label → Label) : Machine.Carries (Machine.Relabelled r) where
  input := Relabelled.input
  set same x v := ⟨congrArg (Env.set · x v) same.env, same.input, same.ip, same.trace⟩
  take same := ⟨same.env, congrArg List.tail same.input, same.ip, same.trace⟩
  record same e silent := by
    have kept : e.relabelled r = e := by
      cases e with
      | lineStarted | jumped => cases silent
      | _ => rfl
    have recorded := same.record e
    rw [kept] at recorded
    exact recorded

theorem events (same : m.Relabelled r m') : m'.events = m.events.map (Event.relabelled r) := by
  unfold Machine.events
  rw [same.trace, List.map_reverse]

/-- Where an observation of events does not look at labels, it is the same. -/
theorem filterMap_events {α : Type} (same : m.Relabelled r m') {f : Event → Option α}
    (blind : ∀ e, f (e.relabelled r) = f e) : m'.events.filterMap f = m.events.filterMap f := by
  rw [same.events, List.filterMap_map]
  exact List.filterMap_congr fun e _ => blind e

theorem started (same : m.Relabelled r m') : m'.started = m.started :=
  same.filterMap_events fun e => by cases e <;> rfl

theorem output (same : m.Relabelled r m') : m'.output = m.output :=
  same.filterMap_events fun e => by cases e <;> rfl

theorem reads (same : m.Relabelled r m') : m'.reads = m.reads := by
  have blind : Event.isRead ∘ Event.relabelled r = Event.isRead := by
    funext e
    cases e <;> rfl
  unfold Machine.reads
  rw [same.trace, List.countP_map, blind]

end Machine.Relabelled

/-- Outcomes that differ in labels only. -/
structure Outcome.Relabelled (r : Label → Label) (o o' : Outcome) : Prop where
  ending : o'.ending = o.ending
  events : o'.machine.events = o.machine.events.map (Event.relabelled r)
  started : o'.machine.started = o.machine.started
  output : o'.machine.output = o.machine.output
  reads : o'.machine.reads = o.machine.reads
  env : o'.machine.env = o.machine.env
  ip : o'.machine.ip = o.machine.ip.map (Label.relabelled r)

/-! ## Runs -/

/-- The same point of a program and of the one with other labels. -/
structure Program.Renamed (r : Label → Label) (p : Program) (c c' : Config) : Prop where
  index : c'.index = c.index
  rest : c'.rest = c.rest.map (Stmt.relabelled r)
  machine : c.machine.Relabelled r c'.machine
  onLine : p.OnLine c

theorem Outcome.Matches.relabelled {p : Program} {o o' : Outcome}
    (matched : Outcome.Matches (Program.Renamed r p) (Machine.Relabelled r) o o') :
    o.Relabelled r o' := by
  rcases matched.ends Program.Renamed.machine with ⟨ending, same⟩
  exact ⟨ending, same.events, same.started, same.output, same.reads, same.env, same.ip⟩

namespace Program

variable {p : Program}

theorem enter_relabelled (i : Nat) {m m' : Machine} (same : m.Relabelled r m') :
    Step.Matches (Renamed r p) (Machine.Relabelled r) (p.enter i m)
      ((p.relabelled r).enter i m') := by
  have onLine := p.enter_onLine i m
  unfold enter at onLine ⊢
  rw [line?_relabelled]
  cases found : p.line? i with
  | none => exact .done same
  | some l =>
    rw [found] at onLine
    exact .next ⟨rfl, rfl, (same.set_ip none).record (.lineStarted i l.label), onLine _ rfl⟩

section Lockstep

variable (relabels : Relabels r p)

include relabels

theorem follow_relabelled {a : Label} (known : a = Label.exit ∨ a ∈ p.declared) {m m' : Machine}
    (same : m.Relabelled r m') :
    Step.Matches (Renamed r p) (Machine.Relabelled r) (p.follow a m)
      ((p.relabelled r).follow (a.relabelled r) m') := by
  unfold follow
  rw [position?_relabelled relabels known, exitIndex_relabelled]
  exact enter_relabelled _ (same.record (.jumped a _))

variable (closed : p.Closed) (free : ∀ l ∈ p.lines, l.label ≠ some Label.exit)

include closed free

theorem step_relabelled {c c' : Config} (renamed : Renamed r p c c') :
    Step.Matches (Renamed r p) (Machine.Relabelled r) (p.step c) ((p.relabelled r).step c') := by
  have stays := step_onLine renamed.onLine
  rcases c with ⟨i, rest, m⟩
  rcases c' with ⟨i', rest', m'⟩
  rcases renamed with ⟨index, stmts, same, onLine⟩
  dsimp only at index stmts
  subst index stmts
  cases rest with
  | nil => exact enter_relabelled _ same
  | cons s rest =>
    rcases onLine.exists_mem_parts rfl with ⟨l, mem, part⟩
    have lands := closed l mem s part
    have decision := Stmt.action_relabelled relabels free m.env lands
    rw [List.map_cons]
    cases decides : s.action p m.env with
    | error f =>
      have decides' : (s.relabelled r).action (p.relabelled r) m'.env = .error f := by
        rw [same.env, decision, decides]
        rfl
      rw [step_of_fault decides, step_of_fault decides']
      exact .failed same
    | ok a =>
      have decides' : (s.relabelled r).action (p.relabelled r) m'.env =
          .ok (a.relabelled r) := by
        rw [same.env, decision, decides]
        rfl
      rw [step_of_action decides] at stays ⊢
      rw [step_of_action decides']
      have machine := (Machine.Relabelled.carries r).effect same a
      cases a with
      | pass front =>
        refine .next ⟨rfl, ?_, same, stays _ rfl⟩
        exact (List.map_append ..).symm
      | leave a =>
        have known := Stmt.known_of_action_leave relabels free lands decides
        exact follow_relabelled relabels known (same.set_ip (some a))
      | _ => exact .next ⟨rfl, rfl, machine, stays _ rfl⟩

theorem run_renamed (env : Env) (input : List String) (n : Nat) :
    Outcome.Matches (Renamed r p) (Machine.Relabelled r) (p.run n ⟨env, input, none, []⟩)
      ((p.relabelled r).run n ⟨env, input, none, []⟩) := by
  have start : Machine.Relabelled r ⟨env, input, none, []⟩ ⟨env, input, none, []⟩ :=
    ⟨rfl, rfl, rfl, rfl⟩
  unfold run
  rw [entryIndex_relabelled relabels free]
  exact runFrom_lockstep (fun renamed => step_relabelled relabels closed free renamed) n
    (enter_relabelled _ start)

end Lockstep

/-- A loaded program whose jumps all go to labels of its lines may be given any other labels, as
long as they are distinct and none is reserved: the new lines are a program, and it runs as the old
one does, except for the labels. -/
theorem run_relabelled {source : String} (loads : load source = .ok p) (closed : p.Closed)
    (relabels : Relabels r p) :
    ∃ q, ofLines (p.lines.map (Line.relabelled r)) = .ok q ∧
      ∀ env input n, (p.run n ⟨env, input, none, []⟩).Relabelled r
        (q.run n ⟨env, input, none, []⟩) := by
  have free : ∀ l ∈ p.lines, l.label ≠ some Label.exit :=
    fun _ mem => label_ne_exit_of_load loads mem
  have distinct : p.declared.Nodup := (ofLines_eq_ok_iff.1 (ofLines_of_load loads)).1
  refine ⟨p.relabelled r, ofLines_relabelled relabels distinct, ?_⟩
  intro env input n
  exact (run_renamed relabels closed free env input n).relabelled

/-- A loop from within another statement, whose label becomes the name of the variable that it
counts with, and a name that becomes a number. -/
theorem run_relabelled_as_variable :
    let r : Label → Label := fun a => if a = .num 10 then .name "n" else .num 7
    ∃ p q, load "10 LET n = n + 1 \\ IF n < 2 THEN GOTO 10 ELSE GOTO end\nEXIT\nend: PRINT n" =
        .ok p ∧
      p.Closed ∧ Relabels r p ∧ ofLines (p.lines.map (Line.relabelled r)) = .ok q ∧
      q.declared = [.name "n", .num 7] ∧
      (p.run 20 ⟨[("n", .int 0)], [], none, []⟩).machine.output = ["2\n"] ∧
      ∀ env input n, (p.run n ⟨env, input, none, []⟩).Relabelled r
        (q.run n ⟨env, input, none, []⟩) := by
  intro r
  rcases exists_load
    (P := fun p => p.Closed ∧ Relabels r p ∧ (p.relabelled r).declared = [.name "n", .num 7] ∧
      (p.run 20 ⟨[("n", .int 0)], [], none, []⟩).machine.output = ["2\n"])
    "10 LET n = n + 1 \\ IF n < 2 THEN GOTO 10 ELSE GOTO end\nEXIT\nend: PRINT n"
    (by decide +kernel) with ⟨p, loads, closed, relabels, declared, output⟩
  rcases run_relabelled loads closed relabels with ⟨q, built, alike⟩
  rcases ofLines_eq_ok_iff.1 built with ⟨-, rfl⟩
  exact ⟨p, _, loads, closed, relabels, built, declared, output, alike⟩

end Program

end GotoBasic
