import GotoBasic.Load
import GotoBasic.Proofs.Run.History
import GotoBasic.Proofs.Run.Lockstep

/-!
# One variable more

To bind a variable that is not bound can only mend a run, never change it
(`Program.run_with_extra_variable`).  Expressions and statements give the same with one variable
more, unless they fail without it, for want of this variable (`Mends`).  So the two runs go in
lockstep up to the point where the first fails in this way, if it ever does.
-/

namespace GotoBasic

/-- The causes that are the want of a variable with the name `x`. -/
inductive Cause.Misses (x : String) : Cause → Prop
  | variable : Misses x (.undefinedVariable x)
  | label {target : Option Label} (name : Label.textOf target = x) :
    Misses x (.undefinedLabel target)

/-- `E'` binds what `E` binds, and at most the variable `x` besides. -/
def Env.Extends (x : String) (E E' : Env) : Prop :=
  ∀ y, E'.get? y = E.get? y ∨ y = x ∧ E.get? y = none

namespace Env.Extends

variable {x : String} {E E' : Env}

/-- Binding a variable that is not bound adds it and changes no other. -/
theorem set_unbound (unbound : E.get? x = none) (v : Value) : Extends x E (E.set x v) := by
  intro y
  rw [get?_set]
  split
  next same => exact .inr ⟨same.symm, by rw [← same]; exact unbound⟩
  · exact .inl rfl

/-- The same assignment in both environments leaves at most the extra variable as a difference.  If
it is the one assigned, there is none any more. -/
theorem set (extended : Extends x E E') (y : String) (v : Value) :
    Extends x (E.set y v) (E'.set y v) := by
  intro z
  rw [get?_set, get?_set]
  split
  · exact .inl rfl
  · exact extended z

end Env.Extends

/-! ## What expressions and statements give -/

/-- The same result on both sides, unless the first is a fault for want of `x`. -/
inductive Mends (x : String) {α : Type} : Except Fault α → Except Fault α → Prop
  | same (r : Except Fault α) : Mends x r r
  | misses {f : Fault} (missing : f.cause.Misses x) (r : Except Fault α) : Mends x (.error f) r

section Evaluation

variable {x : String} {E E' : Env}

/-- Computations are put together: where the first fails for want of the variable, so does the
whole. -/
theorem Mends.bind {α β : Type} {r r' : Except Fault α} {next next' : α → Except Fault β}
    (mends : Mends x r r') (more : ∀ a, Mends x (next a) (next' a)) :
    Mends x (r >>= next) (r' >>= next') := by
  cases mends with
  | same =>
    cases r with
    | error f => exact .same _
    | ok a => exact more a
  | misses missing => exact .misses missing _

/-- By induction on the expression.  Only looking up the variable itself sees a difference, and
without it that fails. -/
theorem Expr.eval_mends (extended : Env.Extends x E E') (e : Expr) :
    Mends x (e.eval E) (e.eval E') := by
  induction e with
  | var pos y =>
    unfold eval
    rcases extended y with same | ⟨rfl, unbound⟩
    · rw [same]
      exact .same _
    · rw [unbound]
      exact .misses .variable _
  | unary pos op e ih => exact ih.bind fun v => .same _
  | binary pos op l r ihl ihr =>
    refine ihl.bind fun v => ?_
    cases op.settledBy? with
    | some settled =>
      refine (Mends.same (v.logical op pos)).bind fun a => ?_
      split
      · exact .same _
      · exact ihr.bind fun w => .same _
    | none => exact ihr.bind fun w => .same _
  | _ => exact .same _

theorem Expr.test_mends (extended : Env.Extends x E E') (statement : Conditional) (e : Expr) :
    Mends x (e.test statement E) (e.test statement E') :=
  (e.eval_mends extended).bind fun _ => .same _

/-- A jump looks for a variable only where its target is no label of the program, and misses it by
its name. -/
theorem Program.resolve_mends (p : Program) (extended : Env.Extends x E E') (pos : Pos)
    (target : Option Label) :
    Mends x (Cause.locate pos (p.resolve E target)) (Cause.locate pos (p.resolve E' target)) := by
  unfold resolve
  cases target.bind p.declared? with
  | some l => exact .same _
  | none =>
    dsimp only
    rcases extended (Label.textOf target) with same | ⟨name, unbound⟩
    · rw [same]
      exact .same _
    · rw [unbound]
      exact .misses (.label name) _

/-- A statement looks at variables through expressions and through the target of a jump. -/
theorem Stmt.action_mends (p : Program) (extended : Env.Extends x E E') (s : Stmt) :
    Mends x (s.action p E) (s.action p E') := by
  cases s with
  | print pos e => exact (e.eval_mends extended).bind fun v => .same _
  | assign pos y e => exact (e.eval_mends extended).bind fun v => .same _
  | ifThen pos cond body => exact (cond.test_mends extended _).bind fun b => .same _
  | ifElse pos cond body other => exact (cond.test_mends extended _).bind fun b => .same _
  | whileThen pos cond body => exact (cond.test_mends extended _).bind fun b => .same _
  | goto pos target => exact (p.resolve_mends extended pos target).bind fun l => .same _
  | _ => exact .same _

end Evaluation

/-! ## Runs -/

/-- Machines that differ at most in the variable `x`, which the first does not bind then. -/
structure Machine.Extends (x : String) (m m' : Machine) : Prop where
  env : Env.Extends x m.env m'.env
  input : m'.input = m.input
  ip : m'.ip = m.ip
  trace : m'.trace = m.trace

/-- The same point of a program with such machines. -/
structure Config.Extends (x : String) (c c' : Config) : Prop where
  index : c'.index = c.index
  rest : c'.rest = c.rest
  machine : c.machine.Extends x c'.machine

namespace Machine.Extends

variable {x : String} {m m' : Machine}

/-- The same event leaves both machines alike. -/
theorem record (extended : m.Extends x m') (e : Event) : (m.record e).Extends x (m'.record e) :=
  ⟨extended.env, extended.input, extended.ip, congrArg (e :: ·) extended.trace⟩

theorem set_ip (extended : m.Extends x m') (l : Option Label) :
    Extends x { m with ip := l } { m' with ip := l } :=
  ⟨extended.env, extended.input, rfl, extended.trace⟩

/-- The same assignment leaves both machines alike. -/
theorem assign (extended : m.Extends x m') (y : String) (v : Value) :
    (m.assign y v).Extends x (m'.assign y v) := by
  have set : Extends x { m with env := m.env.set y v } { m' with env := m'.env.set y v } :=
    ⟨extended.env.set y v, extended.input, extended.ip, extended.trace⟩
  exact set.record _

/-- Both machines read the same line, since the extra variable is no input. -/
theorem read (extended : m.Extends x m') (y : String) : (m.read y).Extends x (m'.read y) := by
  have taken : Extends x { m with input := m.input.tail } { m' with input := m'.input.tail } :=
    ⟨extended.env, by rw [extended.input], extended.ip, extended.trace⟩
  unfold Machine.read
  rw [extended.input] at taken ⊢
  exact (taken.record _).assign _ _

end Machine.Extends

namespace Program

variable {x : String} {m m' : Machine}

/-- A line is started alike on both machines. -/
theorem enter_extends (p : Program) (i : Nat) (extended : m.Extends x m') :
    Step.Matches (Config.Extends x) (Machine.Extends x) (p.enter i m) (p.enter i m') := by
  unfold enter
  cases p.line? i with
  | none => exact .done extended
  | some l => exact .next ⟨rfl, rfl, (extended.set_ip none).record _⟩

/-- An action that both have decided on does the same to both. -/
theorem goOn_extends (p : Program) (i : Nat) (rest : List Stmt) (a : Action)
    (extended : m.Extends x m') :
    Step.Matches (Config.Extends x) (Machine.Extends x) (p.goOn i (a.perform m rest))
      (p.goOn i (a.perform m' rest)) := by
  cases a with
  | pass front => exact .next ⟨rfl, rfl, extended⟩
  | write s => exact .next ⟨rfl, rfl, extended.record _⟩
  | read y => exact .next ⟨rfl, rfl, extended.read y⟩
  | assign y v => exact .next ⟨rfl, rfl, extended.assign y v⟩
  | leave l => exact p.enter_extends _ ((extended.set_ip (some l)).record _)

/-- With one variable more a step does the same, unless it fails without it. -/
theorem step_extends (p : Program) {c c' : Config} (extended : c.Extends x c') :
    Step.Matches (Config.Extends x) (Machine.Extends x) (p.step c) (p.step c') ∨
      ∃ f : Fault, f.cause.Misses x ∧ p.step c = .failed f c.machine := by
  rcases c with ⟨i, rest, m⟩
  rcases c' with ⟨i', rest', m'⟩
  rcases extended with ⟨rfl, rfl, extended⟩
  cases rest' with
  | nil => exact .inl (p.enter_extends _ extended)
  | cons s rest =>
    have mends := s.action_mends p extended.env
    cases decides : s.action p m.env with
    | error f =>
      rw [decides] at mends
      rw [step_of_fault decides]
      generalize decides' : s.action p m'.env = r at mends
      cases mends with
      | same =>
        rw [step_of_fault decides']
        exact .inl (.failed extended)
      | misses missing => exact .inr ⟨f, missing, rfl⟩
    | ok a =>
      rw [decides] at mends
      generalize decides' : s.action p m'.env = r at mends
      cases mends with
      | same =>
        rw [step_of_action decides, step_of_action decides']
        exact .inl (p.goOn_extends i' rest a extended)

end Program

/-- `o'` is like `o`, the outcome of a run on `m`, except perhaps in the variable `x` if the run has
not assigned it. -/
structure Outcome.AgreesBut (x : String) (m : Machine) (o o' : Outcome) : Prop where
  ending : o'.ending = o.ending
  events : o'.machine.events = o.machine.events
  reads : o'.machine.reads = o.machine.reads
  ip : o'.machine.ip = o.machine.ip
  others : ∀ y, y ≠ x → o'.machine.env.get? y = o.machine.env.get? y
  assigned : ∀ new v, o.machine.events = m.events ++ new → .assigned x v ∈ new →
    o'.machine.env.get? x = o.machine.env.get? x

theorem Outcome.Matches.agreesBut {x : String} {m : Machine} {o o' : Outcome}
    (matched : Outcome.Matches (Config.Extends x) (Machine.Extends x) o o')
    (later : m.Later o.machine) : o.AgreesBut x m o' := by
  have agree {e : Ending} (ending : o.ending = e) (ending' : o'.ending = e)
      (extended : o.machine.Extends x o'.machine) : o.AgreesBut x m o' := by
    refine ⟨ending'.trans ending.symm, ?_, ?_, extended.ip, ?_, ?_⟩
    · exact congrArg List.reverse extended.trace
    · exact congrArg (List.countP Event.isRead) extended.trace
    · intro y other
      rcases extended.env y with same | ⟨same, -⟩
      · exact same
      · exact absurd same other
    · intro new v events mem
      have bound := later.isSome_of_assigned events mem
      rcases extended.env x with same | ⟨-, unbound⟩
      · exact same
      · rw [unbound] at bound
        cases bound
  cases matched with
  | running related => exact agree rfl rfl related.machine
  | done related => exact agree rfl rfl related
  | failed related => exact agree rfl rfl related

namespace Program

variable {p : Program} {m m' : Machine} {x : String}

/-- By the step, both runs stay together from their entries on, or the first one stops for want of
the variable. -/
theorem run_extends (p : Program) (extended : m.Extends x m') (n : Nat) :
    Outcome.Matches (Config.Extends x) (Machine.Extends x) (p.run n m) (p.run n m') ∨
      ∃ (f : Fault) (c c' : Config) (k : Nat), f.cause.Misses x ∧ c.Extends x c' ∧
        p.run n m = .failed f c.machine ∧ p.run n m' = p.runFrom k (.next c') :=
  runFrom_lockstep_until (fun f => f.cause.Misses x) (fun related => p.step_extends related) n
    (p.enter_extends _ extended)

/-- A run with one variable more does all that the run without it does, and nothing else unless the
run without it fails for want of this variable. -/
theorem run_with_extra_variable (unbound : m.env.get? x = none) (v : Value) (n : Nat) :
    (p.run n m).machine.events <+: (p.run n { m with env := m.env.set x v }).machine.events ∧
      ((∀ f, (p.run n m).fault? = some f → ¬ f.cause.Misses x) →
        (p.run n m).AgreesBut x m (p.run n { m with env := m.env.set x v })) := by
  have start : m.Extends x { m with env := m.env.set x v } :=
    ⟨.set_unbound unbound v, rfl, rfl, rfl⟩
  rcases p.run_extends start n with matched | ⟨f, c, c', k, missing, related, fails, goesOn⟩
  · have agrees := matched.agreesBut (p.run_later n m)
    exact ⟨⟨[], (List.append_nil _).trans agrees.events.symm⟩, fun _ => agrees⟩
  · rw [fails, goesOn]
    constructor
    · have same : (Outcome.failed f c.machine).machine.events = c'.machine.events :=
        (congrArg List.reverse related.machine.trace).symm
      rw [same]
      exact (p.runFrom_later k (.next c')).isPrefix_events
    · intro others
      exact absurd missing (others f rfl)

/-- A variable that is first passed over, then assigned, and then holds the target of a jump. -/
theorem run_with_extra_target :
    ∃ p m, load "10 IF #t || x THEN PRINT 1\n20 LET x = 40 \\ GOTO x\n30 PRINT x\n40 NOP" = .ok p ∧
      m.env.get? "x" = none ∧ (p.run 9 m).ending = .done ∧
      (p.run 9 m).AgreesBut "x" m (p.run 9 { m with env := m.env.set "x" (.string "30") }) := by
  let m : Machine := ⟨[], [], none, []⟩
  rcases exists_load (P := fun p => (p.run 9 m).ending = .done)
    "10 IF #t || x THEN PRINT 1\n20 LET x = 40 \\ GOTO x\n30 PRINT x\n40 NOP"
    (by decide +kernel) with ⟨p, loads, ends⟩
  refine ⟨p, m, loads, rfl, ends, (run_with_extra_variable rfl (.string "30") 9).2 ?_⟩
  intro f fault
  cases result : p.run 9 m with
  | failed f' m' =>
    rw [result] at ends
    cases ends
  | _ =>
    rw [result] at fault
    cases fault

end Program

end GotoBasic
