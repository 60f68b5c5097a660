import GotoBasic.Program

/-!
# Labels and line numbers

Every label of a program stands for the number of a line or for the number behind the last line
(`Program.position?_le`), and so does the entry (`Program.entryIndex_le`).  Lines are a program
exactly if no two of them have the same label (`Program.ofLines_eq_ok_iff`).
-/

namespace GotoBasic

namespace Program

variable {p : Program} {a : Label} {i : Nat}

/-- In the table, a label has the number of the first line with it. -/
theorem get?_labelsFrom_cons (k : Nat) (l : Line) (ls : List Line) (a : Label) :
    Assoc.get? (labelsFrom k (l :: ls)) a =
      if l.label = some a then some k else Assoc.get? (labelsFrom (k + 1) ls) a := by
  rw [labelsFrom]
  cases l.label with
  | none => rfl
  | some b =>
    rw [Assoc.get?]
    simp only [Option.some.injEq]

/-- What the table says of a label is the number of a line that has it. -/
theorem exists_line_of_get?_labelsFrom {ls : List Line} {k : Nat}
    (found : Assoc.get? (labelsFrom k ls) a = some i) :
    k ≤ i ∧ ∃ l, ls[i - k]? = some l ∧ l.label = some a := by
  induction ls generalizing k with
  | nil => cases found
  | cons l ls ih =>
    rw [get?_labelsFrom_cons] at found
    split at found
    next label =>
      cases found
      exact ⟨Nat.le_refl i, l, by rw [Nat.sub_self, List.getElem?_cons_zero], label⟩
    · rcases ih found with ⟨le, l', there, label⟩
      refine ⟨Nat.le_of_succ_le le, l', ?_, label⟩
      rw [show i - k = i - (k + 1) + 1 by omega]
      exact there

/-- If no two lines have the same label, every label has the number of its line. -/
theorem get?_labelsFrom_of_label {ls : List Line} {l : Line} {j : Nat} (k : Nat)
    (distinct : (ls.filterMap Line.label).Nodup) (there : ls[j]? = some l)
    (label : l.label = some a) : Assoc.get? (labelsFrom k ls) a = some (k + j) := by
  induction ls generalizing j k with
  | nil => cases there
  | cons l' ls ih =>
    rw [get?_labelsFrom_cons]
    cases j with
    | zero =>
      cases there
      rw [if_pos label, Nat.add_zero]
    | succ j =>
      have later : a ∈ ls.filterMap Line.label :=
        List.mem_filterMap.2 ⟨l, List.mem_of_getElem? there, label⟩
      have other : l'.label ≠ some a := by
        intro same
        rw [List.filterMap_cons_some same] at distinct
        exact (List.nodup_cons.1 distinct).1 later
      have rest : (ls.filterMap Line.label).Nodup :=
        distinct.sublist ((List.sublist_cons_self l' ls).filterMap Line.label)
      rw [if_neg other, ih (k + 1) rest there, Nat.add_right_comm, Nat.add_assoc]

/-- A label stands for the end of the program or for what the table of lines says. -/
theorem position?_eq (p : Program) (a : Label) :
    p.position? a =
      if Label.exit = a then some p.exitIndex else Assoc.get? (labelsFrom 1 p.lines) a :=
  Assoc.get?_insert _ _ _ _

/-- The exit is in every program, behind the last line. -/
theorem position?_exit (p : Program) : p.position? Label.exit = some p.exitIndex := by
  rw [position?_eq, if_pos rfl]

/-- A label stands for a line or for the end of the program. -/
theorem position?_le (found : p.position? a = some i) : 1 ≤ i ∧ i ≤ p.exitIndex := by
  rw [position?_eq] at found
  split at found
  · cases found
    exact ⟨Nat.succ_pos _, Nat.le_refl _⟩
  · obtain ⟨positive, l, there, -⟩ := exists_line_of_get?_labelsFrom found
    obtain ⟨below, -⟩ := List.getElem?_eq_some_iff.1 there
    rw [exitIndex]
    omega

/-- A label of a line is in the table, at the first line that has it. -/
theorem isSome_get?_labelsFrom {ls : List Line} {l : Line} (k : Nat) (mem : l ∈ ls)
    (label : l.label = some a) : (Assoc.get? (labelsFrom k ls) a).isSome := by
  induction ls generalizing k with
  | nil => cases mem
  | cons l' ls ih =>
    rw [get?_labelsFrom_cons]
    split
    · rfl
    next other =>
      rcases List.mem_cons.1 mem with rfl | later
      · exact absurd label other
      · exact ih (k + 1) later

/-- A program has the labels of its lines. -/
theorem isSome_position?_of_mem {l : Line} (mem : l ∈ p.lines) (label : l.label = some a) :
    (p.position? a).isSome := by
  rw [position?_eq]
  split
  · rfl
  · exact isSome_get?_labelsFrom 1 mem label

/-- The entry is a label that the program has. -/
theorem isSome_position?_of_entry (start : p.entry = some a) : (p.position? a).isSome := by
  obtain ⟨l, mem, label⟩ := List.exists_of_findSome?_eq_some start
  exact isSome_position?_of_mem mem label

/-- The entry is a line, or the exit if there are no lines. -/
theorem entryIndex_le (p : Program) : 1 ≤ p.entryIndex ∧ p.entryIndex ≤ p.exitIndex := by
  unfold entryIndex
  cases start : p.entry.bind p.position? with
  | none =>
    rw [Option.getD_none, exitIndex]
    omega
  | some i =>
    obtain ⟨a, -, found⟩ := Option.bind_eq_some_iff.1 start
    exact position?_le found

/-- Lines are numbered from one on. -/
theorem line?_eq_some_iff {l : Line} :
    p.line? i = some l ↔ 1 ≤ i ∧ p.lines[i - 1]? = some l := by
  unfold line?
  split
  next zero =>
    constructor
    · intro found
      cases found
    · intro ⟨positive, _⟩
      omega
  next nonzero => exact ⟨fun found => ⟨by omega, found⟩, fun found => found.2⟩

theorem mem_lines_of_line? {l : Line} (found : p.line? i = some l) : l ∈ p.lines :=
  List.mem_of_getElem? (line?_eq_some_iff.1 found).2

theorem le_length_of_line? {l : Line} (found : p.line? i = some l) :
    1 ≤ i ∧ i ≤ p.lines.length := by
  obtain ⟨positive, there⟩ := line?_eq_some_iff.1 found
  obtain ⟨below, -⟩ := List.getElem?_eq_some_iff.1 there
  omega

/-- A label other than `Label.exit` stands for a line that has it. -/
theorem exists_line_of_position? (found : p.position? a = some i) (other : a ≠ Label.exit) :
    ∃ l, p.line? i = some l ∧ l.label = some a := by
  rw [position?_eq, if_neg (Ne.symm other)] at found
  obtain ⟨positive, l, there, label⟩ := exists_line_of_get?_labelsFrom found
  exact ⟨l, line?_eq_some_iff.2 ⟨positive, there⟩, label⟩

/-- A label that no line has is not in the program, unless it is the exit. -/
theorem position?_eq_none (absent : ∀ l ∈ p.lines, l.label ≠ some a) (other : a ≠ Label.exit) :
    p.position? a = none := by
  cases found : p.position? a with
  | none => rfl
  | some i =>
    rcases exists_line_of_position? found other with ⟨l, line, label⟩
    exact absurd label (absent l (mem_lines_of_line? line))

/-- If no label is on two lines, every label leads to its line.  Only the label of the exit, if a
line has it, does not. -/
theorem position?_of_line? {l : Line} (distinct : (p.lines.filterMap Line.label).Nodup)
    (found : p.line? i = some l) (label : l.label = some a) (other : a ≠ Label.exit) :
    p.position? a = some i := by
  obtain ⟨positive, there⟩ := line?_eq_some_iff.1 found
  rw [position?_eq, if_neg (Ne.symm other), get?_labelsFrom_of_label 1 distinct there label,
    Nat.add_sub_cancel' positive]

/-! ## What the labels decide -/

section SameLabels

variable {q : Program}

/-- The table of labels depends on nothing else of the lines. -/
theorem labelsFrom_congr {ls ls' : List Line} (same : ls'.map Line.label = ls.map Line.label)
    (k : Nat) : labelsFrom k ls' = labelsFrom k ls := by
  induction ls generalizing ls' k with
  | nil =>
    cases List.map_eq_nil_iff.1 same
    rfl
  | cons l ls ih =>
    rcases List.map_eq_cons_iff.1 same with ⟨l', ls', rfl, label, rest⟩
    rw [labelsFrom, labelsFrom, label, ih rest]

theorem exitIndex_congr (same : q.lines.map Line.label = p.lines.map Line.label) :
    q.exitIndex = p.exitIndex := by
  have length := congrArg List.length same
  rw [List.length_map, List.length_map] at length
  rw [exitIndex, exitIndex, length]

/-- Lines with the same labels stand at the same numbers, so jumps go to the same places. -/
theorem position?_congr (same : q.lines.map Line.label = p.lines.map Line.label) (a : Label) :
    q.position? a = p.position? a := by
  rw [position?_eq, position?_eq, exitIndex_congr same, labelsFrom_congr same]

/-- A run begins at the same place. -/
theorem entryIndex_congr (same : q.lines.map Line.label = p.lines.map Line.label) :
    q.entryIndex = p.entryIndex := by
  have entry (r : Program) : r.entry = (r.lines.map Line.label).findSome? id := by
    rw [List.findSome?_map]
    rfl
  have positions : q.position? = p.position? := funext (position?_congr same)
  rw [entryIndex, entryIndex, entry, entry, same, positions]

end SameLabels

/-! ## Building programs -/

/-- No label is repeated if all labels of the lines differ from each other and from those before. -/
theorem duplicate?_eq_none_iff {before ls : List Line} :
    duplicate? before ls = none ↔
      (ls.filterMap Line.label).Nodup ∧
        ∀ a ∈ ls.filterMap Line.label, a ∉ before.filterMap Line.label := by
  induction ls generalizing before with
  | nil => simp [duplicate?]
  | cons l ls ih =>
    unfold duplicate?
    cases label : l.label with
    | none =>
      rw [List.filterMap_cons_none label]
      exact ih
    | some a =>
      rw [List.filterMap_cons_some label]
      dsimp only
      cases found : before.find? fun k => k.label = some a with
      | some k =>
        have mem := List.mem_of_find?_eq_some found
        have same : k.label = some a := by simpa using List.find?_some found
        constructor
        · intro none
          cases none
        · intro ⟨_, fresh⟩
          exact absurd (List.mem_filterMap.2 ⟨k, mem, same⟩) (fresh a List.mem_cons_self)
      | none =>
        have fresh : a ∉ before.filterMap Line.label := by
          intro mem
          obtain ⟨k, mem, same⟩ := List.mem_filterMap.1 mem
          exact absurd same (by simpa using List.find?_eq_none.1 found k mem)
        rw [ih, List.filterMap_cons_some label, List.nodup_cons, List.forall_mem_cons]
        constructor
        · intro ⟨distinct, apart⟩
          refine ⟨⟨fun mem => apart a mem List.mem_cons_self, distinct⟩, fresh, fun b mem => ?_⟩
          exact fun mem' => apart b mem (List.mem_cons_of_mem a mem')
        · intro ⟨⟨once, distinct⟩, _, apart⟩
          refine ⟨distinct, fun b mem mem' => ?_⟩
          rcases List.mem_cons.1 mem' with rfl | mem'
          · exact once mem
          · exact apart b mem mem'

/-- Lines are a program exactly if no two of them have the same label. -/
theorem ofLines_eq_ok_iff {ls : List Line} :
    ofLines ls = .ok p ↔ (ls.filterMap Line.label).Nodup ∧ p = ⟨ls⟩ := by
  have fits : duplicate? [] ls = none ↔ (ls.filterMap Line.label).Nodup := by
    rw [duplicate?_eq_none_iff]
    simp
  unfold ofLines
  cases found : duplicate? [] ls with
  | some e =>
    rw [found] at fits
    simp [← fits]
  | none =>
    rw [found] at fits
    simp only [fits.1 rfl, true_and]
    constructor
    · intro same
      cases same
      rfl
    · intro same
      rw [same]

/-- Whether lines are a program depends on their labels only. -/
theorem ofLines_congr {ls ls' : List Line} (same : ls'.map Line.label = ls.map Line.label)
    (built : ofLines ls = .ok p) : ofLines ls' = .ok ⟨ls'⟩ := by
  have labels (ks : List Line) : ks.filterMap Line.label = (ks.map Line.label).filterMap id := by
    rw [List.filterMap_map]
    rfl
  refine ofLines_eq_ok_iff.2 ⟨?_, rfl⟩
  rw [labels, same, ← labels]
  exact (ofLines_eq_ok_iff.1 built).1

end Program

end GotoBasic
