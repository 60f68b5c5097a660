import GotoBasic.Proofs.Program.Insertion
import GotoBasic.Proofs.Run.Simulation

/-!
# Splitting a line

If a line is split into two lines, where the second has no label, then the program runs as
before.  The numbers of all later lines grow by one (`shiftPast`), and a run of the new program
has one step more whenever it passes from the first part of the line to the second.
-/

namespace GotoBasic

namespace Program

section Split

variable (before after : List Line) (pos pos₁ pos₂ : Pos) (label : Option Label)
  (first second : List Stmt)

/-- The program with the whole line. -/
abbrev whole : Program := ⟨before ++ ⟨pos, label, first ++ second⟩ :: after⟩

end Split

/-- `q` is `p` with line `i` split into the statements `first` and `second`. -/
structure SplitAt (p q : Program) (i : Nat) (first second : List Stmt) : Prop where
  entryIndex : q.entryIndex = shiftPast i p.entryIndex
  exitIndex : q.exitIndex = shiftPast i p.exitIndex
  position? : ∀ a, q.position? a = (p.position? a).map (shiftPast i)
  whole : ∃ l, p.line? i = some l ∧ l.stmts = first ++ second
  part₁ : ∃ l, q.line? i = some l ∧ l.stmts = first
  part₂ : ∃ l, q.line? (i + 1) = some l ∧ l.stmts = second
  other : ∀ j, j ≠ i → q.line? (shiftPast i j) = p.line? j

namespace SplitAt

variable {p q : Program} {i : Nat} {first second : List Stmt}

/-- Places in the two programs that correspond.  A place in line `i` may lie in its first part,
where the second part is still to come, or in its second. -/
inductive Related (i : Nat) (second : List Stmt) : Config → Config → Prop
  | outside {j : Nat} {rest : List Stmt} {m m' : Machine} (other : j ≠ i) (alike : m.Alike m')
      (unset : m'.ip = none) : Related i second ⟨j, rest, m⟩ ⟨shiftPast i j, rest, m'⟩
  | first {rest : List Stmt} {m m' : Machine} (alike : m.Alike m') (unset : m'.ip = none) :
      Related i second ⟨i, rest ++ second, m⟩ ⟨i, rest, m'⟩
  | second {rest : List Stmt} {m m' : Machine} (alike : m.Alike m') (unset : m'.ip = none) :
      Related i second ⟨i, rest, m⟩ ⟨i + 1, rest, m'⟩

theorem Related.alike {c c' : Config} (related : Related i second c c') :
    c.machine.Alike c'.machine := by
  cases related with
  | outside _ alike _ => exact alike
  | first alike _ => exact alike
  | second alike _ => exact alike

theorem enter_matches (split : SplitAt p q i first second) (j : Nat) {m m' : Machine}
    (alike : m.Alike m') :
    Step.Matches (Related i second) Machine.Alike (p.enter j m) (q.enter (shiftPast i j) m') := by
  unfold enter
  by_cases here : j = i
  · subst here
    obtain ⟨l, found, stmts⟩ := split.whole
    obtain ⟨l', found', stmts'⟩ := split.part₁
    rw [shiftPast_of_le (Nat.le_refl j), found, found']
    dsimp only
    rw [stmts, stmts']
    exact .next (.first (alike.startLine _ _ _ _) rfl)
  · rw [split.other j here]
    cases p.line? j with
    | some l => exact .next (.outside here (alike.startLine _ _ _ _) rfl)
    | none => exact .done alike

/-- A statement does the same in both programs, whatever statements follow it. -/
theorem step_cons_matches (split : SplitAt p q i first second) {j j' : Nat} {s : Stmt}
    {rest rest' : List Stmt} {m m' : Machine} (alike : m.Alike m') (unset : m'.ip = none)
    (stays : ∀ (front : List Stmt) {m₁ m₁' : Machine}, m₁.Alike m₁' → m₁'.ip = none →
      Related i second ⟨j, front ++ rest, m₁⟩ ⟨j', front ++ rest', m₁'⟩) :
    Step.Matches (Related i second) Machine.Alike (p.step ⟨j, s :: rest, m⟩)
      (q.step ⟨j', s :: rest', m'⟩) := by
  have same : s.action q m'.env = s.action p m.env := by
    rw [alike.env]
    refine Stmt.action_congr (fun l => ?_) _ s
    rw [split.position?, Option.isSome_map]
  cases decides : s.action p m.env with
  | error f =>
    rw [decides] at same
    rw [step_of_fault decides, step_of_fault same]
    exact .failed alike
  | ok a =>
    rw [decides] at same
    refine step_matches_of_action alike decides same ?_ ?_
    · intro front m₁ m₁' alike kept
      exact stays front alike (kept.trans unset)
    · intro l _ m₁ m₁' alike
      exact follow_matches l split.enter_matches (split.position? l) split.exitIndex alike

/-- The program with two lines has one step of its own, from the first part to the second. -/
theorem simulation (split : SplitAt p q i first second) :
    Simulation (Related i second) Machine.Alike p q fun c => if c.index = i then 1 else 0 := by
  refine ⟨fun related => ?_⟩
  cases related with
  | @outside j rest m m' other alike unset =>
    refine .inl ?_
    cases rest with
    | nil =>
      rw [step_nil, step_nil, ← shiftPast_succ other]
      exact split.enter_matches (j + 1) alike
    | cons s rest =>
      exact split.step_cons_matches alike unset fun _ _ _ alike unset => .outside other alike unset
  | @first rest m m' alike unset =>
    cases rest with
    | nil =>
      obtain ⟨l, found, stmts⟩ := split.part₂
      refine .inr ⟨⟨i + 1, second, { m' with ip := none }.record (.lineStarted (i + 1) l.label)⟩,
        ?_, .second ?_ rfl, ?_⟩
      · rw [step_nil, enter, found]
        dsimp only
        rw [stmts]
      · have same : Machine.Alike m' { m' with ip := none } := ⟨rfl, rfl, unset, rfl, rfl⟩
        exact (alike.trans same).trans (Machine.Alike.note _ rfl rfl).symm
      · rw [if_pos rfl, if_neg (Nat.succ_ne_self i)]
        exact Nat.one_pos
    | cons s rest =>
      refine .inl (split.step_cons_matches alike unset ?_)
      intro front m₁ m₁' alike unset
      change Related i second ⟨i, front ++ (rest ++ second), m₁⟩ _
      rw [← List.append_assoc]
      exact .first alike unset
  | @second rest m m' alike unset =>
    refine .inl ?_
    cases rest with
    | nil =>
      rw [step_nil, step_nil, ← shiftPast_of_lt (Nat.lt_succ_self i)]
      exact split.enter_matches (i + 1) alike
    | cons s rest =>
      exact split.step_cons_matches alike unset fun _ _ _ alike unset => .second alike unset

end SplitAt

end Program

end GotoBasic
