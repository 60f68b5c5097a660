import GotoBasic.Proofs.Run.Simulation

/-!
# Runs in lockstep

If related points of two programs always step to related points, then after any number of steps
both programs are at related points or have ended in the same way (`Program.runFrom_lockstep`).
The first program may also be allowed to stop with certain faults where the second goes on; then
the second has been at a related point when the first stopped
(`Program.runFrom_lockstep_until`).
-/

namespace GotoBasic

/-- Related runs end alike, and their machines are related. -/
theorem Outcome.Matches.ends {R : Config → Config → Prop} {M : Machine → Machine → Prop}
    {o o' : Outcome} (matched : Outcome.Matches R M o o')
    (machine : ∀ {c c'}, R c c' → M c.machine c'.machine) :
    o'.ending = o.ending ∧ M o.machine o'.machine := by
  cases matched with
  | running related => exact ⟨rfl, machine related⟩
  | done related => exact ⟨rfl, related⟩
  | failed related => exact ⟨rfl, related⟩

/-- Where related machines are the same machine, so are the ends of related runs. -/
theorem Outcome.Matches.same {R : Config → Config → Prop} {o o' : Outcome}
    (matched : Outcome.Matches R Eq o o')
    (machine : ∀ {c c'}, R c c' → c'.machine = c.machine) :
    o'.ending = o.ending ∧ o'.machine = o.machine := by
  rcases matched.ends fun related => (machine related).symm with ⟨ending, same⟩
  exact ⟨ending, same.symm⟩

namespace Program

variable {R : Config → Config → Prop} {M : Machine → Machine → Prop} {p q : Program}

theorem runFrom_lockstep_until (stops : Fault → Prop)
    (step : ∀ {c c'}, R c c' → Step.Matches R M (p.step c) (q.step c') ∨
      ∃ f, stops f ∧ p.step c = .failed f c.machine)
    (n : Nat) {s s' : Step} (start : Step.Matches R M s s') :
    Outcome.Matches R M (p.runFrom n s) (q.runFrom n s') ∨
      ∃ f c c' k, stops f ∧ R c c' ∧ p.runFrom n s = .failed f c.machine ∧
        q.runFrom n s' = q.runFrom k (.next c') := by
  induction n generalizing s s' with
  | zero =>
    cases start with
    | next related => exact .inl (.running related)
    | done related => exact .inl (.done related)
    | failed related => exact .inl (.failed related)
  | succ n ih =>
    cases start with
    | done related => exact .inl (.done related)
    | failed related => exact .inl (.failed related)
    | @next c c' related =>
      rcases step related with matched | ⟨f, stop, fails⟩
      · exact ih matched
      · refine .inr ⟨f, c, c', n + 1, stop, related, ?_, rfl⟩
        change p.runFrom n (p.step c) = _
        rw [fails]
        cases n <;> rfl

theorem runFrom_lockstep
    (step : ∀ {c c'}, R c c' → Step.Matches R M (p.step c) (q.step c')) (n : Nat) {s s' : Step}
    (start : Step.Matches R M s s') : Outcome.Matches R M (p.runFrom n s) (q.runFrom n s') := by
  have never := runFrom_lockstep_until (fun _ => False) (fun related => .inl (step related)) n start
  rcases never with matched | ⟨-, -, -, -, impossible, -⟩
  · exact matched
  · exact impossible.elim

end Program

end GotoBasic
