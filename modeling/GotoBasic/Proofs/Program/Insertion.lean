import GotoBasic.Proofs.Program.Labels

/-!
# Two lines in the place of one

If two lines take the place of line `i`, of which the first keeps its label, then all labels are
kept, and the numbers of all later lines grow by one (`shiftPast`).  The second line may have a
label of its own, if no other line has it and it does not become the entry
(`Program.inserts_of_lines`).
-/

namespace GotoBasic

/-- The new number of line `j` after two lines have taken the place of line `i`.  The first of them
has the number of line `i`. -/
def shiftPast (i j : Nat) : Nat := if j ≤ i then j else j + 1

/-- The lines up to the one that is replaced keep their numbers. -/
theorem shiftPast_of_le {i j : Nat} (le : j ≤ i) : shiftPast i j = j := if_pos le

/-- The lines behind the one that is replaced move by one. -/
theorem shiftPast_of_lt {i j : Nat} (lt : i < j) : shiftPast i j = j + 1 :=
  if_neg (Nat.not_le_of_lt lt)

/-- The line behind any other line is still the one behind it, so a run that goes from line to line
stays in step.  Behind line `i` itself stands the second of its two lines. -/
theorem shiftPast_succ {i j : Nat} (other : j ≠ i) :
    shiftPast i (j + 1) = shiftPast i j + 1 := by
  unfold shiftPast
  split <;> split <;> omega

namespace Program

/-- `q` is `p` where the lines `l₁` and `l₂` have taken the place of line `i`, which is `l`. -/
structure Inserts (p q : Program) (i : Nat) (l l₁ l₂ : Line) : Prop where
  entryIndex : q.entryIndex = shiftPast i p.entryIndex
  exitIndex : q.exitIndex = shiftPast i p.exitIndex
  position? : ∀ a, l₂.label ≠ some a → q.position? a = (p.position? a).map (shiftPast i)
  whole : p.line? i = some l
  part₁ : q.line? i = some l₁
  part₂ : q.line? (i + 1) = some l₂
  other : ∀ j, j ≠ i → q.line? (shiftPast i j) = p.line? j

/-- A table of labels that begins one line later has the same labels, each at a number greater by
one. -/
theorem get?_labelsFrom_succ {i k : Nat} (ls : List Line) (a : Label) (lt : i < k) :
    Assoc.get? (labelsFrom (k + 1) ls) a =
      (Assoc.get? (labelsFrom k ls) a).map (shiftPast i) := by
  induction ls generalizing k with
  | nil => rfl
  | cons l ls ih =>
    rw [get?_labelsFrom_cons, get?_labelsFrom_cons, ih (Nat.lt_succ_of_lt lt)]
    split
    · rw [Option.map_some, shiftPast_of_lt lt]
    · rfl

section Lines

variable {before after : List Line} {l l₁ l₂ : Line}

/-- The table of labels after the exchange, for a label that the second line does not bring.  The
induction is on the lines before, so that the numbers of the first lines are what is counted from.
-/
theorem get?_labelsFrom_insert (k : Nat) {a : Label} (same : l₁.label = l.label)
    (other : l₂.label ≠ some a) :
    Assoc.get? (labelsFrom k (before ++ l₁ :: l₂ :: after)) a =
      (Assoc.get? (labelsFrom k (before ++ l :: after)) a).map
        (shiftPast (k + before.length)) := by
  induction before generalizing k with
  | nil =>
    simp only [List.nil_append, get?_labelsFrom_cons, same, if_neg other, List.length_nil,
      Nat.add_zero]
    split
    · rw [Option.map_some, shiftPast_of_le (Nat.le_refl k)]
    · exact get?_labelsFrom_succ after a (Nat.lt_succ_self k)
  | cons l' before ih =>
    have rest := ih (k + 1)
    rw [show k + 1 + before.length = k + (l' :: before).length by
      rw [List.length_cons]; omega] at rest
    rw [List.cons_append, List.cons_append, get?_labelsFrom_cons, get?_labelsFrom_cons, rest]
    split
    · rw [Option.map_some, shiftPast_of_le (Nat.le_add_right _ _)]
    · rfl

/-- The exit stands behind the last line, so it moves with the later lines. -/
theorem exitIndex_insert :
    (Program.mk (before ++ l₁ :: l₂ :: after)).exitIndex =
      shiftPast (before.length + 1) (Program.mk (before ++ l :: after)).exitIndex := by
  have size : (Program.mk (before ++ l :: after)).exitIndex =
      before.length + 1 + after.length + 1 := by simp [exitIndex]; omega
  rw [size, shiftPast_of_lt (by omega)]
  simp [exitIndex]
  omega

/-- A label stands where it stood, at the new number of its line.  `EXIT` is such a label too. -/
theorem position?_insert {a : Label} (same : l₁.label = l.label) (other : l₂.label ≠ some a) :
    (Program.mk (before ++ l₁ :: l₂ :: after)).position? a =
      ((Program.mk (before ++ l :: after)).position? a).map (shiftPast (before.length + 1)) := by
  rw [position?_eq, position?_eq]
  split
  · rw [Option.map_some, exitIndex_insert (l := l)]
  · rw [get?_labelsFrom_insert 1 same other, Nat.add_comm 1]

/-- The entry is the first label of the program.  It stays the same, since a label of the second
line comes behind that of the first. -/
theorem entry_insert (same : l₁.label = l.label)
    (later : ∀ a, l₂.label = some a → l.label.isSome) :
    (Program.mk (before ++ l₁ :: l₂ :: after)).entry =
      (Program.mk (before ++ l :: after)).entry := by
  unfold entry
  rw [List.findSome?_append, List.findSome?_append]
  simp only [List.findSome?_cons, same]
  cases label : l.label with
  | some a => rfl
  | none =>
    cases label₂ : l₂.label with
    | none => rfl
    | some a =>
      have labelled := later a label₂
      rw [label] at labelled
      cases labelled

/-- Every other line is found at its new number. -/
theorem line?_insert {j : Nat} (other : j ≠ before.length + 1) :
    (Program.mk (before ++ l₁ :: l₂ :: after)).line? (shiftPast (before.length + 1) j) =
      (Program.mk (before ++ l :: after)).line? j := by
  unfold line?
  rcases Nat.lt_or_gt_of_ne other with less | greater
  · rw [shiftPast_of_le (Nat.le_of_lt less)]
    by_cases zero : j = 0
    · rw [if_pos zero, if_pos zero]
    · have inside : j - 1 < before.length := by omega
      rw [if_neg zero, if_neg zero, List.getElem?_append_left inside,
        List.getElem?_append_left inside]
  · have exceeds : ∃ k, j = before.length + (k + 1) + 1 := ⟨j - before.length - 2, by omega⟩
    rcases exceeds with ⟨k, rfl⟩
    rw [shiftPast_of_lt greater, if_neg (Nat.succ_ne_zero _), if_neg (Nat.succ_ne_zero _),
      Nat.add_sub_cancel, Nat.add_sub_cancel, Nat.add_assoc,
      List.getElem?_append_right (Nat.le_add_right _ _),
      List.getElem?_append_right (Nat.le_add_right _ _), Nat.add_sub_cancel_left,
      Nat.add_sub_cancel_left]
    rfl

/-- Two lines may take the place of one, if the second has no label or a new one behind that of the
first. -/
theorem inserts_of_lines (same : l₁.label = l.label)
    (later : ∀ a, l₂.label = some a → l.label.isSome)
    (fresh : ∀ a, l₂.label = some a → ∀ k ∈ before ++ l :: after, k.label ≠ some a) :
    Inserts ⟨before ++ l :: after⟩ ⟨before ++ l₁ :: l₂ :: after⟩ (before.length + 1) l l₁ l₂ where
  entryIndex := by
    unfold entryIndex
    rw [entry_insert same later]
    cases start : (Program.mk (before ++ l :: after)).entry with
    | none => exact (shiftPast_of_le (j := 1) (Nat.le_add_left 1 _)).symm
    | some a =>
      have other : l₂.label ≠ some a := by
        intro label
        rcases List.exists_of_findSome?_eq_some start with ⟨k, mem, label'⟩
        exact fresh a label k mem label'
      rw [Option.bind_some, Option.bind_some, position?_insert same other]
      cases (Program.mk (before ++ l :: after)).position? a with
      | none => exact (shiftPast_of_le (j := 1) (Nat.le_add_left 1 _)).symm
      | some i => rfl
  exitIndex := exitIndex_insert
  position? := fun _ => position?_insert same
  whole := by simp [line?]
  part₁ := by simp [line?]
  part₂ := by simp [line?]
  other := fun _ => line?_insert

end Lines

end Program

end GotoBasic
