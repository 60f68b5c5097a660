import GotoBasic.Run

/-!
# What statements do

A statement looks at the variables and at the labels of the program, and then does one thing.
`Stmt.action` is this decision, `Action.perform` its effect on the machine and on the statements
still to run.  Together they are one step of the machine (`Stmt.step_eq`), so facts about single
steps need not go through the statements again.
-/

namespace GotoBasic

/-- What a statement does. -/
inductive Action where
  /-- Nothing but to put statements before the others. -/
  | pass (front : List Stmt)
  | write (text : String)
  | read (name : String)
  | assign (name : String) (value : Value)
  /-- The line is left for a label. -/
  | leave (target : Label)
  deriving DecidableEq, Repr

/-- What a statement decides to do. -/
def Stmt.action (p : Program) (env : Env) : Stmt → Except Fault Action
  | .print pos e => do
    let v ← e.eval env
    return .write (← Cause.locate pos v.display)
  | .input _ x => return .read x
  | .assign _ x e => return .assign x (← e.eval env)
  | .ifThen _ cond body => return .pass (if ← cond.test .ifThen env then [body] else [])
  | .ifElse _ cond body other => return .pass [if ← cond.test .ifThen env then body else other]
  | .whileThen pos cond body =>
    return .pass (if ← cond.test .whileThen env then [body, .whileThen pos cond body] else [])
  | .goto pos target => return .leave (← Cause.locate pos (p.resolve env target))
  | .exit _ => return .leave Label.exit
  | .nop _ => return .pass []
  | .unknown pos => throw ⟨.unknownStatement, pos⟩

/-- The effect of an action before the statements `rest`. -/
def Action.perform (m : Machine) (rest : List Stmt) : Action → Flow
  | .pass front => .next (front ++ rest) m
  | .write s => .next rest (m.write s)
  | .read x => .next rest (m.read x)
  | .assign x v => .next rest (m.assign x v)
  | .leave l => Flow.leave l m

theorem bind_eq_map {α β γ : Type} {x : Except Fault α} {next : α → Except Fault γ}
    {next' : α → Except Fault β} {f : β → γ}
    (more : ∀ a, next a = (next' a).map f) : (x >>= next) = (x >>= next').map f := by
  cases x with
  | error e => rfl
  | ok a => exact more a

/-- One step is a decision and its effect. -/
theorem Stmt.step_eq (p : Program) (m : Machine) (rest : List Stmt) (s : Stmt) :
    s.step p m rest = (s.action p m.env).map (Action.perform m rest) := by
  cases s with
  | print pos e => exact bind_eq_map fun v => bind_eq_map fun _ => rfl
  | assign pos x e => exact bind_eq_map fun _ => rfl
  | ifThen pos cond body =>
    refine bind_eq_map fun b => ?_
    cases b <;> rfl
  | ifElse pos cond body other =>
    refine bind_eq_map fun b => ?_
    cases b <;> rfl
  | whileThen pos cond body =>
    refine bind_eq_map fun b => ?_
    cases b <;> rfl
  | goto pos target => exact bind_eq_map fun _ => rfl
  | _ => rfl

/-! ## Which statements decide what -/

theorem exists_of_bind_eq_ok {α β : Type} {x : Except Fault α} {next : α → Except Fault β} {b : β}
    (gives : (x >>= next) = .ok b) : ∃ a, x = .ok a ∧ next a = .ok b := by
  cases x with
  | error f => cases gives
  | ok a => exact ⟨a, rfl, gives⟩

/-- The variable that a statement assigns, if it is run itself. -/
def Stmt.assigned? : Stmt → Option String
  | .input _ x => some x
  | .assign _ x _ => some x
  | _ => none

/-- The target of a statement that is a jump. -/
def Stmt.target? : Stmt → Option Label
  | .goto _ target => target
  | _ => none

/-- The variable that an action assigns. -/
def Action.assigned? : Action → Option String
  | .read x => some x
  | .assign x _ => some x
  | _ => none

section Decisions

variable {p : Program} {env : Env} {s : Stmt}

theorem Stmt.assigned?_eq_of_action {a : Action} (decides : s.action p env = .ok a) :
    a.assigned? = s.assigned? := by
  cases s with
  | print pos e =>
    rcases exists_of_bind_eq_ok decides with ⟨v, -, shows⟩
    rcases exists_of_bind_eq_ok shows with ⟨t, -, writes⟩
    cases writes
    rfl
  | unknown pos => cases decides
  | input pos x | nop pos | exit pos =>
    cases decides
    rfl
  | _ =>
    rcases exists_of_bind_eq_ok decides with ⟨b, -, gives⟩
    cases gives
    rfl

/-- A line of input is taken by an input statement. -/
theorem Stmt.of_action_read {x : String} (decides : s.action p env = .ok (.read x)) :
    ∃ pos, s = .input pos x := by
  have assigns : s.assigned? = some x := (assigned?_eq_of_action decides).symm
  cases s with
  | input pos y =>
    cases assigns
    exact ⟨pos, rfl⟩
  | assign pos y e =>
    rcases exists_of_bind_eq_ok decides with ⟨v, -, gives⟩
    cases gives
  | _ => cases assigns

/-- A line is left by a jump or by an exit. -/
theorem Stmt.of_action_leave {l : Label} (decides : s.action p env = .ok (.leave l)) :
    (∃ pos target, s = .goto pos target ∧ p.resolve env target = .ok l) ∨
      ∃ pos, s = .exit pos ∧ l = Label.exit := by
  cases s with
  | goto pos target =>
    rcases exists_of_bind_eq_ok decides with ⟨l', located, gives⟩
    cases gives
    cases resolves : p.resolve env target with
    | error c =>
      rw [resolves] at located
      cases located
    | ok l' =>
      rw [resolves] at located
      cases located
      exact .inl ⟨pos, target, rfl, resolves⟩
  | exit pos =>
    cases decides
    exact .inr ⟨pos, rfl, rfl⟩
  | print pos e =>
    rcases exists_of_bind_eq_ok decides with ⟨v, -, shows⟩
    rcases exists_of_bind_eq_ok shows with ⟨t, -, writes⟩
    cases writes
  | input pos x | nop pos | unknown pos => cases decides
  | _ =>
    rcases exists_of_bind_eq_ok decides with ⟨b, -, gives⟩
    cases gives

end Decisions

/-- A jump to a label of the program goes there. -/
theorem Program.resolve_of_isSome {p : Program} {l : Label} (has : (p.position? l).isSome)
    (env : Env) : p.resolve env (some l) = .ok l := by
  have declared : p.declared? l = some l := if_pos has
  unfold resolve
  rw [Option.bind_some, declared]

/-- A jump to a target without a line goes where the variable of the target's text says. -/
theorem Program.resolve_of_undeclared {p : Program} {env : Env} {target : Label} {v : Value}
    (undeclared : p.position? target = none) (bound : env.get? target.text = some v) :
    p.resolve env (some target) =
      match (Label.ofValue? v).bind p.declared? with
      | some l => .ok l
      | none => .error (.notALabel target.text) := by
  have own : p.declared? target = none :=
    if_neg (by rw [undeclared]; exact Bool.false_ne_true)
  have held : env.get? (Label.textOf (some target)) = some v := bound
  unfold resolve
  rw [Option.bind_some, own]
  dsimp only
  rw [held]
  rfl

/-! ## What decisions depend on -/

/-- Jumps ask a program only which labels it has. -/
theorem Program.resolve_congr {p q : Program}
    (same : ∀ l, (q.position? l).isSome = (p.position? l).isSome) (env : Env)
    (target : Option Label) : q.resolve env target = p.resolve env target := by
  have declared : q.declared? = p.declared? := by
    funext l
    unfold declared?
    rw [same]
  unfold resolve
  rw [declared]

theorem Stmt.action_congr {p q : Program}
    (same : ∀ l, (q.position? l).isSome = (p.position? l).isSome) (env : Env) (s : Stmt) :
    s.action q env = s.action p env := by
  cases s with
  | goto pos target =>
    change (Cause.locate pos (q.resolve env target) >>= _) =
      (Cause.locate pos (p.resolve env target) >>= _)
    rw [Program.resolve_congr same]
  | _ => rfl

/-! ## Steps of a program -/

namespace Program

variable {p : Program} {i : Nat} {s : Stmt} {rest : List Stmt} {m : Machine}

/-- How a program goes on after a statement of line `i`. -/
def goOn (p : Program) (i : Nat) : Flow → Step
  | .next rest m => .next ⟨i, rest, m⟩
  | .jump l m => p.follow l m

theorem step_nil : p.step ⟨i, [], m⟩ = p.enter (i + 1) m := rfl

theorem step_of_action {a : Action} (decides : s.action p m.env = .ok a) :
    p.step ⟨i, s :: rest, m⟩ = p.goOn i (a.perform m rest) := by
  unfold step
  dsimp only
  rw [Stmt.step_eq, decides]
  cases a <;> rfl

theorem step_of_fault {f : Fault} (fails : s.action p m.env = .error f) :
    p.step ⟨i, s :: rest, m⟩ = .failed f m := by
  unfold step
  dsimp only
  rw [Stmt.step_eq, fails]
  rfl

/-- A step ends a line, fails, or does what a statement decides to do. -/
theorem step_cases (p : Program) (c : Config) :
    (∃ i m, c = ⟨i, [], m⟩ ∧ p.step c = p.enter (i + 1) m) ∨
      (∃ i s rest m f, c = ⟨i, s :: rest, m⟩ ∧ s.action p m.env = .error f ∧
        p.step c = .failed f m) ∨
      ∃ i s rest m a, c = ⟨i, s :: rest, m⟩ ∧ s.action p m.env = .ok a ∧
        p.step c = p.goOn i (a.perform m rest) := by
  rcases c with ⟨i, rest, m⟩
  cases rest with
  | nil => exact .inl ⟨i, m, rfl, rfl⟩
  | cons s rest =>
    cases decides : s.action p m.env with
    | error f => exact .inr (.inl ⟨i, s, rest, m, f, rfl, decides, step_of_fault decides⟩)
    | ok a => exact .inr (.inr ⟨i, s, rest, m, a, rfl, decides, step_of_action decides⟩)

end Program

end GotoBasic
