import GotoBasic.Proofs.Run.Action

/-!
# Actions that stay on their line

An action that does not leave the line puts statements before the others (`Action.front`) and
changes the machine (`Action.effect`).  Related machines stay related under all such actions, if
they do when a variable is set, a line of input is taken, and an event is recorded
(`Machine.Carries.effect`).
-/

namespace GotoBasic

namespace Action

/-- The action does not leave the line. -/
def Stays (a : Action) : Prop := ∀ l, a ≠ .leave l

/-- What the action puts before the statements that follow. -/
def front : Action → List Stmt
  | .pass front => front
  | _ => []

/-- What the action makes of the machine, if it stays on the line. -/
def effect (m : Machine) : Action → Machine
  | .write s => m.write s
  | .read x => m.read x
  | .assign x v => m.assign x v
  | .pass _ | .leave _ => m

theorem stays_or_leaves (a : Action) : a.Stays ∨ ∃ l, a = .leave l := by
  cases a with
  | leave l => exact .inr ⟨l, rfl⟩
  | _ => exact .inl fun _ same => nomatch same

theorem perform_of_stays {a : Action} (stays : a.Stays) (m : Machine) (rest : List Stmt) :
    a.perform m rest = .next (a.front ++ rest) (a.effect m) := by
  cases a with
  | leave l => exact absurd rfl (stays l)
  | _ => rfl

theorem ip_effect (a : Action) (m : Machine) : (a.effect m).ip = m.ip := by
  cases a <;> rfl

end Action

theorem Program.step_of_stays {p : Program} {i : Nat} {s : Stmt} {rest : List Stmt} {m : Machine}
    {a : Action} (decides : s.action p m.env = .ok a) (stays : a.Stays) :
    p.step ⟨i, s :: rest, m⟩ = .next ⟨i, a.front ++ rest, a.effect m⟩ := by
  rw [step_of_action decides, Action.perform_of_stays stays]
  rfl

/-- Related machines stay related when both set a variable, take a line of input, or record an event
that is no note. -/
structure Machine.Carries (R : Machine → Machine → Prop) : Prop where
  input : ∀ {m m'}, R m m' → m'.input = m.input
  set : ∀ {m m'}, R m m' → ∀ x v,
    R { m with env := m.env.set x v } { m' with env := m'.env.set x v }
  take : ∀ {m m'}, R m m' →
    R { m with input := m.input.tail } { m' with input := m'.input.tail }
  record : ∀ {m m'}, R m m' → ∀ {e : Event}, e.note? = none → R (m.record e) (m'.record e)

theorem Machine.Carries.effect {R : Machine → Machine → Prop} (carries : Carries R)
    {m m' : Machine} (related : R m m') (a : Action) : R (a.effect m) (a.effect m') := by
  have assign {m m' : Machine} (related : R m m') (x : String) (v : Value) :
      R (m.assign x v) (m'.assign x v) :=
    carries.record (carries.set related x v) rfl
  cases a with
  | write s => exact carries.record related rfl
  | assign x v => exact assign related x v
  | read x =>
    have taken := carries.take related
    change R (m.read x) (m'.read x)
    unfold Machine.read
    rw [carries.input related] at taken ⊢
    exact assign (carries.record taken rfl) x _
  | _ => exact related

end GotoBasic
