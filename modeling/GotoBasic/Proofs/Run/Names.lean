import GotoBasic.Load
import GotoBasic.Proofs.Run.Effect
import GotoBasic.Proofs.Run.History
import GotoBasic.Proofs.Run.Lockstep

/-!
# The names that a program mentions

A run looks at no variables but those whose names the program mentions (`Program.names`), and it
changes only those that the program assigns (`Program.run_depends_on_names`).  A jump mentions its
target: if the program does not have the label, the variable of this name is looked at.

Expressions and statements give the same where the variables that they mention agree
(`Expr.eval_of_agreesOn`, `Stmt.action_of_agreesOn`).  So two runs go in lockstep on machines that
agree on the names of the program, as all that is still to be run on a line is a part of this line.
-/

namespace GotoBasic

/-! ## Names -/

/-- The names of the variables in an expression. -/
def Expr.names : Expr → List String
  | .var _ x => [x]
  | .unary _ _ e => e.names
  | .binary _ _ l r => l.names ++ r.names
  | _ => []

/-- The names in a statement, less those in the statements in it.  The name in a jump is the text of
its target. -/
def Stmt.names : Stmt → List String
  | .print _ e => e.names
  | .input _ x => [x]
  | .assign _ x e => x :: e.names
  | .ifThen _ cond _ | .ifElse _ cond _ _ | .whileThen _ cond _ => cond.names
  | .goto _ target => [Label.textOf target]
  | .nop _ | .exit _ | .unknown _ => []

/-- All names in a program. -/
def Program.names (p : Program) : List String :=
  p.lines.flatMap fun l => l.parts.flatMap Stmt.names

theorem Program.OnLine.names_subset {p : Program} {i : Nat} {s : Stmt} {rest : List Stmt}
    {m : Machine} (onLine : p.OnLine ⟨i, s :: rest, m⟩) : s.names ⊆ p.names := by
  rcases onLine.exists_mem_parts rfl with ⟨l, onProgram, part⟩
  intro x mem
  have inLine : x ∈ l.parts.flatMap Stmt.names := List.mem_flatMap.2 ⟨s, part, mem⟩
  exact List.mem_flatMap.2 ⟨l, onProgram, inLine⟩

/-! ## Decisions -/

/-- The variables with the names `X` are the same in `E` and in `E'`. -/
def Env.AgreesOn (X : List String) (E E' : Env) : Prop := ∀ x ∈ X, E'.get? x = E.get? x

instance (X : List String) (E E' : Env) : Decidable (E.AgreesOn X E') :=
  inferInstanceAs (Decidable (∀ x ∈ X, E'.get? x = E.get? x))

section Evaluation

variable {X Y : List String} {E E' : Env}

theorem Env.AgreesOn.mono (agree : E.AgreesOn Y E') (sub : X ⊆ Y) : E.AgreesOn X E' :=
  fun x mem => agree x (sub mem)

theorem Env.AgreesOn.set (agree : E.AgreesOn X E') (x : String) (v : Value) :
    (E.set x v).AgreesOn X (E'.set x v) := by
  intro y mem
  rw [get?_set, get?_set, agree y mem]

theorem Expr.eval_of_agreesOn {e : Expr} (agree : E.AgreesOn e.names E') :
    e.eval E' = e.eval E := by
  induction e with
  | var pos x =>
    unfold eval
    rw [agree x List.mem_cons_self]
  | unary pos op e ih =>
    unfold eval
    rw [ih agree]
  | binary pos op l r ihl ihr =>
    unfold eval
    rw [ihl (agree.mono (List.subset_append_left _ _)),
      ihr (agree.mono (List.subset_append_right _ _))]
  | _ => rfl

theorem Expr.test_of_agreesOn {e : Expr} (agree : E.AgreesOn e.names E')
    (statement : Conditional) : e.test statement E' = e.test statement E := by
  unfold test
  rw [eval_of_agreesOn agree]

/-- A jump looks at the variable of its target's text, and at no other. -/
theorem Program.resolve_of_agreesOn (p : Program) {target : Option Label}
    (agree : E.AgreesOn [Label.textOf target] E') : p.resolve E' target = p.resolve E target := by
  unfold resolve
  dsimp only
  rw [agree _ List.mem_cons_self]

theorem Stmt.action_of_agreesOn (p : Program) {s : Stmt} (agree : E.AgreesOn s.names E') :
    s.action p E' = s.action p E := by
  cases s with
  | print pos e =>
    change (e.eval E' >>= _) = (e.eval E >>= _)
    rw [Expr.eval_of_agreesOn agree]
  | assign pos x e =>
    change (e.eval E' >>= _) = (e.eval E >>= _)
    rw [Expr.eval_of_agreesOn (agree.mono (List.subset_cons_self x _))]
  | ifThen pos cond body | ifElse pos cond body other =>
    change (cond.test .ifThen E' >>= _) = (cond.test .ifThen E >>= _)
    rw [Expr.test_of_agreesOn agree]
  | whileThen pos cond body =>
    change (cond.test .whileThen E' >>= _) = (cond.test .whileThen E >>= _)
    rw [Expr.test_of_agreesOn agree]
  | goto pos target =>
    change (Cause.locate pos (p.resolve E' target) >>= _) =
      (Cause.locate pos (p.resolve E target) >>= _)
    rw [p.resolve_of_agreesOn agree]
  | _ => rfl

end Evaluation

/-! ## Runs in lockstep -/

/-- Machines that differ at most in variables whose names are not in `X`. -/
structure Machine.AgreesOn (X : List String) (m m' : Machine) : Prop where
  env : m.env.AgreesOn X m'.env
  input : m'.input = m.input
  ip : m'.ip = m.ip
  trace : m'.trace = m.trace

namespace Machine.AgreesOn

variable {X : List String} {m m' : Machine}

theorem record (agree : m.AgreesOn X m') (e : Event) : (m.record e).AgreesOn X (m'.record e) :=
  ⟨agree.env, agree.input, agree.ip, congrArg (e :: ·) agree.trace⟩

theorem set_ip (agree : m.AgreesOn X m') (l : Option Label) :
    AgreesOn X { m with ip := l } { m' with ip := l } :=
  ⟨agree.env, agree.input, rfl, agree.trace⟩

theorem carries (X : List String) : Machine.Carries (Machine.AgreesOn X) where
  input := AgreesOn.input
  set agree x v := ⟨agree.env.set x v, agree.input, agree.ip, agree.trace⟩
  take agree := ⟨agree.env, congrArg List.tail agree.input, agree.ip, agree.trace⟩
  record agree _ _ := agree.record _

end Machine.AgreesOn

/-- The same point of the program with machines that agree on its names. -/
structure Program.Agrees (p : Program) (c c' : Config) : Prop where
  index : c'.index = c.index
  rest : c'.rest = c.rest
  machine : c.machine.AgreesOn p.names c'.machine
  onLine : p.OnLine c

/-- Outcomes that differ at most in variables whose names are not in `X`. -/
structure Outcome.AgreesOn (X : List String) (o o' : Outcome) : Prop where
  ending : o'.ending = o.ending
  events : o'.machine.events = o.machine.events
  reads : o'.machine.reads = o.machine.reads
  input : o'.machine.input = o.machine.input
  ip : o'.machine.ip = o.machine.ip
  env : o.machine.env.AgreesOn X o'.machine.env

theorem Outcome.Matches.agreesOn {p : Program} {o o' : Outcome}
    (matched : Outcome.Matches p.Agrees (Machine.AgreesOn p.names) o o') :
    o.AgreesOn p.names o' := by
  rcases matched.ends Program.Agrees.machine with ⟨ending, agree⟩
  exact ⟨ending, congrArg List.reverse agree.trace,
    congrArg (List.countP Event.isRead) agree.trace, agree.input, agree.ip, agree.env⟩

namespace Program

variable {p : Program} {m m' : Machine}

theorem enter_agrees (p : Program) (i : Nat) (agree : m.AgreesOn p.names m') :
    Step.Matches p.Agrees (Machine.AgreesOn p.names) (p.enter i m) (p.enter i m') := by
  have onLine := p.enter_onLine i m
  unfold enter at onLine ⊢
  cases found : p.line? i with
  | none => exact .done agree
  | some l =>
    rw [found] at onLine
    exact .next ⟨rfl, rfl, (agree.set_ip none).record _, onLine _ rfl⟩

theorem step_agrees {c c' : Config} (agrees : p.Agrees c c') :
    Step.Matches p.Agrees (Machine.AgreesOn p.names) (p.step c) (p.step c') := by
  rcases c with ⟨i, rest, m⟩
  rcases c' with ⟨i', rest', m'⟩
  rcases agrees with ⟨rfl, rfl, agree, onLine⟩
  cases rest' with
  | nil => exact p.enter_agrees _ agree
  | cons s rest =>
    have same := s.action_of_agreesOn p (agree.env.mono onLine.names_subset)
    have next := step_onLine onLine
    cases decides : s.action p m.env with
    | error f =>
      rw [step_of_fault decides, step_of_fault (same.trans decides)]
      exact .failed agree
    | ok a =>
      have decides' := same.trans decides
      rcases a.stays_or_leaves with stays | ⟨l, rfl⟩
      · rw [step_of_stays decides stays] at next ⊢
        rw [step_of_stays decides' stays]
        exact .next ⟨rfl, rfl, (Machine.AgreesOn.carries _).effect agree a, next _ rfl⟩
      · rw [step_of_action decides, step_of_action decides']
        exact p.enter_agrees _ ((agree.set_ip (some l)).record _)

theorem run_agrees (agree : m.AgreesOn p.names m') (n : Nat) :
    (p.run n m).AgreesOn p.names (p.run n m') :=
  (runFrom_lockstep step_agrees n (p.enter_agrees p.entryIndex agree)).agreesOn

/-! ## What a run leaves as it is -/

/-- On the way from `m` to `m'` only variables that the program assigns have changed, and none has
become unbound. -/
structure Keeps (p : Program) (m m' : Machine) : Prop where
  spared : ∀ x, p.Spares x → m'.env.get? x = m.env.get? x
  bound : ∀ x, (m.env.get? x).isSome → (m'.env.get? x).isSome

theorem runFrom_spares {x : String} (spares : p.Spares x) (n : Nat) {s : Step}
    (start : Step.All p.OnLine s) :
    (p.runFrom n s).machine.env.get? x = s.machine.env.get? x := by
  fun_induction p.runFrom n s with
  | case1 n m => rfl
  | case2 n f m => rfl
  | case3 c => rfl
  | case4 n c ih =>
    have onLine := start c rfl
    exact (ih (step_onLine onLine)).trans (step_spares spares onLine)

theorem keeps_of_later (later : m.Later m')
    (spared : ∀ x, p.Spares x → m'.env.get? x = m.env.get? x) : p.Keeps m m' := by
  refine ⟨spared, fun x bound => ?_⟩
  rcases later with ⟨new, after⟩
  by_cases assigned : ∃ v, .assigned x v ∈ new
  · rcases assigned with ⟨v, mem⟩
    exact after.bound x v mem
  · rw [after.kept x fun v mem => assigned ⟨v, mem⟩]
    exact bound

theorem run_keeps (p : Program) (n : Nat) (m : Machine) : p.Keeps m (p.run n m).machine := by
  refine keeps_of_later (p.run_later n m) fun x spares => ?_
  exact (runFrom_spares spares n (p.enter_onLine _ m)).trans (get?_enter _ m x)

/-- What a run keeps on the whole it keeps from any of its points on. -/
theorem run_keeps_on (p : Program) (n k : Nat) (m : Machine) :
    p.Keeps (p.run n m).machine (p.run (n + k) m).machine := by
  unfold run
  rw [runFrom_add]
  cases reached : p.runFrom n (p.enter p.entryIndex m) with
  | running c =>
    have onLine : Step.All p.OnLine (.next c) := by
      intro c' same
      cases same
      exact run_onLine reached
    exact keeps_of_later (p.runFrom_later k (.next c)) fun x spares =>
      runFrom_spares spares k onLine
  | _ => exact ⟨fun _ _ => rfl, fun _ bound => bound⟩

/-- Runs of a program from variables that agree on its names cannot be told apart but by variables
of other names.  Every run changes only variables that the program assigns, and leaves none unbound
that was bound at some point of it. -/
theorem run_depends_on_names {E : Env} (agree : m.env.AgreesOn p.names E) (n : Nat) :
    (p.run n m).AgreesOn p.names (p.run n { m with env := E }) ∧
      ∀ m₀, p.Keeps m₀ (p.run n m₀).machine ∧
        ∀ k, p.Keeps (p.run n m₀).machine (p.run (n + k) m₀).machine := by
  have machines : m.AgreesOn p.names { m with env := E } := ⟨agree, rfl, rfl, rfl⟩
  constructor
  · exact run_agrees machines n
  · intro m₀
    exact ⟨p.run_keeps n m₀, fun k => p.run_keeps_on n k m₀⟩

/-- A jump to a number without a line, which goes through the variable of the number's digits. -/
theorem run_depends_on_digits :
    ∃ p m E, load "5 GOTO 7\n6 PRINT 1\n10 LET z = y" = .ok p ∧ p.names = ["7", "z", "y"] ∧
      m.env.AgreesOn p.names E ∧ m.env.get? "x" ≠ E.get? "x" ∧ (p.run 9 m).ending = .done ∧
      (p.run 9 m).machine.env.get? "z" ≠ none ∧
      (p.run 9 m).AgreesOn p.names (p.run 9 { m with env := E }) ∧
      p.Keeps m (p.run 9 m).machine := by
  let m : Machine := ⟨[("7", .int 10), ("y", .bool true)], [], none, []⟩
  let E : Env := [("x", .int 6), ("y", .bool true), ("7", .int 10)]
  rcases exists_load
    (P := fun p => p.names = ["7", "z", "y"] ∧ m.env.AgreesOn p.names E ∧
      (p.run 9 m).ending = .done ∧ (p.run 9 m).machine.env.get? "z" ≠ none)
    "5 GOTO 7\n6 PRINT 1\n10 LET z = y" (by decide +kernel) with
    ⟨p, loads, names, agree, ends, assigned⟩
  have differ : m.env.get? "x" ≠ E.get? "x" := by decide
  rcases run_depends_on_names agree 9 with ⟨agrees, kept⟩
  exact ⟨p, m, E, loads, names, agree, differ, ends, assigned, agrees, (kept m).1⟩

end Program

end GotoBasic
