import GotoBasic.Proofs.Program.Labels

/-!
# Assembling lines

Lines are assembled to a program if and only if no label stands on two of them.  The table of the
program then has the number of every labelled line and the number behind the last line, and nothing
else (`Program.Exact`).  Otherwise the error is about the first line whose label stands on a line
before it (`Program.FirstRepeat`).  Its message shows the label and two positions, and exists only
if the numbers among them are not too long to be written (`DuplicateLabel.message?`).
-/

namespace GotoBasic

/-! ## Messages -/

/-- The label as messages show it, if it can be written. -/
def Label.shown? : Label → Option String
  | .num n => Decimal.text? n
  | .name s => some (Text.quoted s)

namespace DuplicateLabel

/-- The message with its position, if all numbers in it can be written. -/
def message? (e : DuplicateLabel) : Option String := do
  let label ← e.label.shown?
  let first ← Decimal.text? e.firstLine
  let line ← Decimal.text? e.pos.line
  let col ← Decimal.text? e.pos.col
  return "duplicate label " ++ label ++ " (first declared at line " ++ first ++ ")" ++
    (" at line " ++ line ++ " col " ++ col)

/-- The numbers in the message are not too long to be written. -/
def isWritable (e : DuplicateLabel) : Bool :=
  (match e.label with
    | .num n => Decimal.isWritable n
    | .name _ => true) &&
  Decimal.isWritable e.firstLine && Decimal.isWritable e.pos.line && Decimal.isWritable e.pos.col

end DuplicateLabel

theorem Decimal.ofList_digits (n : Int) : String.ofList (Decimal.digits n) = toString n := by
  cases n with
  | ofNat n => rfl
  | negSucc n =>
    have negative : Int.negSucc n < 0 := Int.negSucc_lt_zero n
    have signed : Decimal.digits (.negSucc n) = ['-'] ++ Nat.toDigits 10 (n + 1) := by
      rw [Decimal.digits, if_pos negative]
      rfl
    rw [signed, String.ofList_append]
    rfl

theorem Decimal.text?_eq (n : Int) :
    Decimal.text? n = if Decimal.isWritable n then some (toString n) else none := by
  rw [Decimal.text?, Decimal.ofList_digits]

/-- The least number with more digits than can be written. -/
def Decimal.tooLong : Int := (Nat.pow 10 digitLimit : Nat)

theorem Decimal.isWritable_tooLong : Decimal.isWritable Decimal.tooLong = false := by
  unfold isWritable tooLong
  rw [Int.natAbs_natCast]
  exact decide_eq_false (Nat.lt_irrefl _)

/-- The message of an error, or none if a number in it is too long. -/
theorem DuplicateLabel.message?_eq (e : DuplicateLabel) :
    e.message? = if e.isWritable then some e.message else none := by
  have label : e.label.shown? =
      if (match e.label with
        | .num n => Decimal.isWritable n
        | .name _ => true) then some e.label.shown else none := by
    cases e.label with
    | num n => rfl
    | name s => rfl
  unfold message? isWritable
  rw [label, Decimal.text?_eq, Decimal.text?_eq, Decimal.text?_eq]
  generalize (match e.label with
    | .num n => Decimal.isWritable n
    | .name _ => true) = shown
  -- The four numbers are written one after the other, up to the first that is too long.
  cases shown with
  | false => rfl
  | true =>
    cases Decimal.isWritable e.firstLine with
    | false => rfl
    | true =>
      cases Decimal.isWritable e.pos.line with
      | false => rfl
      | true => cases Decimal.isWritable e.pos.col <;> rfl

namespace Assoc

variable {α β : Type} [DecidableEq α]

theorem mem_keys_insert {l : List (α × β)} {k j : α} {v : β} :
    j ∈ (insert l k v).map Prod.fst ↔ j = k ∨ j ∈ l.map Prod.fst := by
  induction l with
  | nil => simp [insert]
  | cons p l ih =>
    obtain ⟨i, w⟩ := p
    unfold insert
    split
    next same =>
      subst same
      simp
    next other =>
      rw [List.map_cons, List.mem_cons, ih, List.map_cons, List.mem_cons]
      exact or_left_comm

/-- No key stands twice in a table, whatever is inserted. -/
theorem nodup_keys_insert {l : List (α × β)} (distinct : (l.map Prod.fst).Nodup) (k : α) (v : β) :
    ((insert l k v).map Prod.fst).Nodup := by
  induction l with
  | nil => exact List.pairwise_singleton _ k
  | cons p l ih =>
    obtain ⟨i, w⟩ := p
    rw [List.map_cons, List.nodup_cons] at distinct
    unfold insert
    split
    next same =>
      subst same
      exact List.nodup_cons.2 distinct
    next other =>
      refine List.nodup_cons.2 ⟨fun mem => ?_, ih distinct.2⟩
      rcases mem_keys_insert.1 mem with same | mem
      · exact other same
      · exact distinct.1 mem

end Assoc

namespace Program

variable {p q : Program} {a b : Label} {i j : Nat} {l : Line} {ls before after : List Line}

/-! ## Lines and their labels -/

/-- The line with the number `i` has the label `a`. -/
def Carries (p : Program) (i : Nat) (a : Label) : Prop := ∃ l, p.line? i = some l ∧ l.label = some a

/-- No label stands on two lines. -/
def Distinct (p : Program) : Prop := ∀ a i j, p.Carries i a → p.Carries j a → i = j

theorem carries_iff : p.Carries i a ↔ 1 ≤ i ∧ ∃ l, p.lines[i - 1]? = some l ∧ l.label = some a := by
  unfold Carries
  constructor
  · intro ⟨l, found, label⟩
    obtain ⟨positive, there⟩ := line?_eq_some_iff.1 found
    exact ⟨positive, l, there, label⟩
  · intro ⟨positive, l, there, label⟩
    exact ⟨l, line?_eq_some_iff.2 ⟨positive, there⟩, label⟩

theorem exists_carries_iff : (∃ i, p.Carries i a) ↔ a ∈ p.lines.filterMap Line.label := by
  rw [List.mem_filterMap]
  constructor
  · intro ⟨i, l, found, label⟩
    exact ⟨l, mem_lines_of_line? found, label⟩
  · intro ⟨l, mem, label⟩
    obtain ⟨j, there⟩ := List.mem_iff_getElem?.1 mem
    exact ⟨j + 1, carries_iff.2 ⟨Nat.succ_pos j, l, there, label⟩⟩

theorem distinct_iff : p.Distinct ↔ (p.lines.filterMap Line.label).Nodup := by
  unfold List.Nodup
  rw [List.pairwise_filterMap, List.pairwise_iff_getElem]
  constructor
  · intro distinct i j below below' less a label b label' same
    subst same
    have first : p.Carries (i + 1) a :=
      carries_iff.2 ⟨Nat.succ_pos i, _, List.getElem?_eq_getElem below, label⟩
    have second : p.Carries (j + 1) a :=
      carries_iff.2 ⟨Nat.succ_pos j, _, List.getElem?_eq_getElem below', label'⟩
    exact absurd (Nat.succ.inj (distinct a _ _ first second)) (Nat.ne_of_lt less)
  · intro apart a
    have less {i j : Nat} (first : p.Carries i a) (second : p.Carries j a) : ¬ i < j := by
      intro less
      obtain ⟨positive, l, there, label⟩ := carries_iff.1 first
      obtain ⟨-, l', there', label'⟩ := carries_iff.1 second
      obtain ⟨below, rfl⟩ := List.getElem?_eq_some_iff.1 there
      obtain ⟨below', rfl⟩ := List.getElem?_eq_some_iff.1 there'
      exact apart _ _ below below' (by omega) a label a label' rfl
    intro i j first second
    have le := Nat.le_of_not_lt (less second first)
    exact Nat.le_antisymm le (Nat.le_of_not_lt (less first second))

/-- The line with the number `i` is the first one with a label, and its label is `a`. -/
def FirstLabelled (p : Program) (i : Nat) (a : Label) : Prop :=
  p.Carries i a ∧ ∀ b j, p.Carries j b → i ≤ j

/-! ## Programs -/

/-- The table and the entry of a program say what they should. -/
structure Exact (p : Program) : Prop where
  line : ∀ a i, a ≠ Label.exit → (p.position? a = some i ↔ p.Carries i a)
  exit : p.position? Label.exit = some (p.lines.length + 1)
  keys : ∀ a, a ∈ p.labels.map Prod.fst ↔ a = Label.exit ∨ ∃ i, p.Carries i a
  once : (p.labels.map Prod.fst).Nodup
  entry : ∀ a, p.entry = some a ↔ ∃ i, p.FirstLabelled i a
  unlabelled : p.entry = none ↔ ∀ a i, ¬ p.Carries i a
  start : p.entry = none → p.entryIndex = 1
  startLine : ∀ a, p.entry = some a → a ≠ Label.exit → p.FirstLabelled p.entryIndex a
  startExit : p.entry = some Label.exit → p.entryIndex = p.lines.length + 1
  bounds : 1 ≤ p.entryIndex ∧ p.entryIndex ≤ p.lines.length + 1

theorem map_fst_labelsFrom (k : Nat) (ls : List Line) :
    (labelsFrom k ls).map Prod.fst = ls.filterMap Line.label := by
  induction ls generalizing k with
  | nil => rfl
  | cons l ls ih =>
    rw [labelsFrom]
    cases label : l.label with
    | none => rw [List.filterMap_cons_none label]; exact ih (k + 1)
    | some a => rw [List.filterMap_cons_some label, List.map_cons, ih (k + 1)]

theorem Carries.unique_label (first : p.Carries i a) (second : p.Carries i b) : a = b := by
  obtain ⟨l, found, label⟩ := first
  obtain ⟨l', found', label'⟩ := second
  cases found.symm.trans found'
  exact Option.some.inj (label.symm.trans label')

/-- The lines before a cut keep their numbers. -/
theorem carries_append_iff (within : i ≤ before.length) :
    (Program.mk (before ++ after)).Carries i a ↔ (Program.mk before).Carries i a := by
  rw [carries_iff, carries_iff]
  refine and_congr_right fun positive => ?_
  dsimp only
  rw [List.getElem?_append_left (by omega)]

/-- The line right behind a cut. -/
theorem line?_append_cons :
    (Program.mk (before ++ l :: after)).line? (before.length + 1) = some l := by
  refine line?_eq_some_iff.2 ⟨Nat.succ_pos _, ?_⟩
  dsimp only
  rw [Nat.add_sub_cancel, List.getElem?_append_right (Nat.le_refl _), Nat.sub_self,
    List.getElem?_cons_zero]

theorem entry_eq_none_iff : p.entry = none ↔ ∀ a i, ¬ p.Carries i a := by
  unfold entry
  rw [List.findSome?_eq_none_iff]
  constructor
  · intro none a i ⟨l, found, label⟩
    rw [none l (mem_lines_of_line? found)] at label
    cases label
  · intro none l mem
    cases label : l.label with
    | none => rfl
    | some a =>
      obtain ⟨i, carries⟩ := exists_carries_iff.2 (List.mem_filterMap.2 ⟨l, mem, label⟩)
      exact absurd carries (none a i)

theorem exists_firstLabelled (start : p.entry = some a) : ∃ i, p.FirstLabelled i a := by
  obtain ⟨ls⟩ := p
  obtain ⟨before, l, after, rfl, label, unlabelled⟩ := List.findSome?_eq_some_iff.1 start
  refine ⟨before.length + 1, ⟨l, line?_append_cons, label⟩, fun b j carries => ?_⟩
  refine Nat.lt_of_not_le fun within => ?_
  obtain ⟨l', found, label'⟩ := (carries_append_iff within).1 carries
  rw [unlabelled l' (mem_lines_of_line? found)] at label'
  cases label'

theorem entry_eq_some_iff : p.entry = some a ↔ ∃ i, p.FirstLabelled i a := by
  constructor
  · exact exists_firstLabelled
  · intro ⟨i, carries, first⟩
    cases start : p.entry with
    | none => exact absurd carries (entry_eq_none_iff.1 start a i)
    | some b =>
      obtain ⟨j, carries', first'⟩ := exists_firstLabelled start
      obtain rfl := Nat.le_antisymm (first b j carries') (first' a i carries)
      rw [carries.unique_label carries']

theorem position?_eq_some_iff (distinct : p.Distinct) (other : a ≠ Label.exit) :
    p.position? a = some i ↔ p.Carries i a := by
  constructor
  · exact fun found => exists_line_of_position? found other
  · intro ⟨l, found, label⟩
    exact position?_of_line? (distinct_iff.1 distinct) found label other

theorem position?_of_entry (start : p.entry = some a) : p.position? a = some p.entryIndex := by
  obtain ⟨i, found⟩ := Option.isSome_iff_exists.1 (isSome_position?_of_entry start)
  rw [entryIndex, start, Option.bind_some, found]
  rfl

theorem exact_of_distinct (distinct : p.Distinct) : p.Exact where
  line := fun a i other => position?_eq_some_iff distinct other
  exit := position?_exit p
  keys := fun a => by
    rw [labels, Assoc.mem_keys_insert, map_fst_labelsFrom, exists_carries_iff]
  once := by
    refine Assoc.nodup_keys_insert ?_ _ _
    rw [map_fst_labelsFrom]
    exact distinct_iff.1 distinct
  entry := fun a => entry_eq_some_iff
  unlabelled := entry_eq_none_iff
  start := fun none => by rw [entryIndex, none]; rfl
  startLine := fun a start other => by
    obtain ⟨i, carries, first⟩ := exists_firstLabelled start
    have here := (position?_eq_some_iff distinct other).2 carries
    rw [position?_of_entry start] at here
    obtain rfl := Option.some.inj here
    exact ⟨carries, first⟩
  startExit := fun start => by
    have here := position?_of_entry start
    rw [position?_exit] at here
    exact (Option.some.inj here).symm
  bounds := entryIndex_le p

/-! ## Repeated labels -/

/-- The error is about line `i`, the first line whose label stands on an earlier line, and line `j`
is the one earlier line with that label. -/
structure FirstRepeat (p : Program) (e : DuplicateLabel) (i j : Nat) (l k : Line) : Prop where
  line : p.line? i = some l
  label : l.label = some e.label
  pos : l.pos = e.pos
  earlier : j < i
  firstLine : p.line? j = some k
  firstLabel : k.label = some e.label
  firstPos : k.pos.line = e.firstLine
  only : ∀ m < i, p.Carries m e.label → m = j
  first : ∀ m < i, ∀ a, p.Carries m a → ∀ n < m, ¬ p.Carries n a

/-- The search for a repeated label stops at a line whose label stands on an earlier line, and finds
none before it. -/
theorem exists_of_duplicate? {e : DuplicateLabel} (found : duplicate? before ls = some e) :
    ∃ mid l after k, ls = mid ++ l :: after ∧ duplicate? before mid = none ∧
      l.label = some e.label ∧ l.pos = e.pos ∧ (k ∈ before ∨ k ∈ mid) ∧
      k.label = some e.label ∧ k.pos.line = e.firstLine := by
  induction ls generalizing before with
  | nil => cases found
  | cons l ls ih =>
    rw [duplicate?] at found
    cases label : l.label with
    | none =>
      rw [label] at found
      obtain ⟨mid, l', after, k, rfl, none, label', pos, mem, first⟩ := ih found
      refine ⟨l :: mid, l', after, k, rfl, ?_, label', pos, ?_, first⟩
      · rw [duplicate?, label]
        exact none
      · exact mem.imp_right (List.mem_cons_of_mem l)
    | some a =>
      rw [label] at found
      dsimp only at found
      cases earlier : before.find? fun k => k.label = some a with
      | some k =>
        rw [earlier] at found
        cases found
        have label' : k.label = some a := by simpa using List.find?_some earlier
        have mem := List.mem_of_find?_eq_some earlier
        exact ⟨[], l, ls, k, rfl, rfl, label, rfl, .inl mem, label', rfl⟩
      | none =>
        rw [earlier] at found
        obtain ⟨mid, l', after, k, rfl, none, label', pos, mem, first⟩ := ih found
        refine ⟨l :: mid, l', after, k, rfl, ?_, label', pos, ?_, first⟩
        · rw [duplicate?, label]
          dsimp only
          rw [earlier]
          exact none
        · rw [List.mem_cons] at mem
          rcases mem with (rfl | mem) | mem
          · exact .inr List.mem_cons_self
          · exact .inl mem
          · exact .inr (List.mem_cons_of_mem l mem)

/-- A refused list of lines has a first line with a repeated label, and the error is about it. -/
theorem exists_firstRepeat {e : DuplicateLabel} (refused : ofLines ls = .error e) :
    ∃ i j l k, FirstRepeat ⟨ls⟩ e i j l k := by
  have found : duplicate? [] ls = some e := by
    unfold ofLines at refused
    cases found : duplicate? [] ls with
    | none => rw [found] at refused; cases refused
    | some e' => rw [found] at refused; exact congrArg some (Except.error.inj refused)
  obtain ⟨before, l, after, k, rfl, none, label, pos, mem, label', firstPos⟩ :=
    exists_of_duplicate? found
  have distinct : (Program.mk before).Distinct :=
    distinct_iff.2 (duplicate?_eq_none_iff.1 none).1
  obtain ⟨j, there⟩ := List.mem_iff_getElem?.1 (mem.resolve_left List.not_mem_nil)
  have below : j < before.length := (List.getElem?_eq_some_iff.1 there).1
  have firstLine : (Program.mk before).line? (j + 1) = some k :=
    line?_eq_some_iff.2 ⟨Nat.succ_pos j, there⟩
  have inside {m : Nat} {a : Label} (less : m < before.length + 1) :
      (Program.mk (before ++ l :: after)).Carries m a ↔ (Program.mk before).Carries m a :=
    carries_append_iff (Nat.le_of_lt_succ less)
  refine ⟨before.length + 1, j + 1, l, k, ⟨line?_append_cons, label, pos, Nat.succ_lt_succ below,
    ?_, label', firstPos, fun m less carries => ?_, fun m less a carries n less' carries' => ?_⟩⟩
  · refine line?_eq_some_iff.2 ⟨Nat.succ_pos j, ?_⟩
    dsimp only
    rw [List.getElem?_append_left (by omega)]
    exact there
  · exact distinct _ _ _ ((inside less).1 carries) ⟨k, firstLine, label'⟩
  · rw [inside less] at carries
    rw [inside (Nat.lt_trans less' less)] at carries'
    exact absurd (distinct a n m carries' carries) (Nat.ne_of_lt less')

/-! ## Assembling -/

/-- Lines are assembled exactly if no label stands on two of them.  The program has these lines, and
its table and its entry are exact.  The error is about the first line with a repeated label; its
message names the label and the line of the text that has it first, if its numbers can be
written. -/
theorem ofLines_exact (ls : List Line) :
    ((∃ p, ofLines ls = .ok p) ↔ (Program.mk ls).Distinct) ∧
      match ofLines ls with
      | .ok p => p.lines = ls ∧ p.Exact
      | .error e =>
        ∃ i j l k, FirstRepeat ⟨ls⟩ e i j l k ∧ e.message? =
          if e.isWritable then
            some ("duplicate label " ++ e.label.shown ++ " (first declared at line " ++
              toString k.pos.line ++ ")" ++ l.pos.suffix)
          else none := by
  constructor
  · rw [distinct_iff]
    constructor
    · intro ⟨p, assembled⟩
      exact (ofLines_eq_ok_iff.1 assembled).1
    · intro distinct
      exact ⟨_, ofLines_eq_ok_iff.2 ⟨distinct, rfl⟩⟩
  · cases assembled : ofLines ls with
    | ok p =>
      obtain ⟨distinct, rfl⟩ := ofLines_eq_ok_iff.1 assembled
      exact ⟨rfl, exact_of_distinct (distinct_iff.2 distinct)⟩
    | error e =>
      obtain ⟨i, j, l, k, repeats⟩ := exists_firstRepeat assembled
      refine ⟨i, j, l, k, repeats, ?_⟩
      rw [e.message?_eq, repeats.firstPos, repeats.pos]
      rfl

/-- Two lines have the least label with one digit more than can be written.  They are refused, but
there is no message that says so. -/
theorem ofLines_repeat_too_long :
    ∃ e, ofLines [⟨⟨1, 1⟩, some (.num Decimal.tooLong), [.nop ⟨1, 2⟩]⟩,
        ⟨⟨2, 1⟩, some (.num Decimal.tooLong), [.nop ⟨2, 2⟩]⟩] = .error e ∧
      e.message? = none := by
  have unwritable := Decimal.isWritable_tooLong
  generalize Decimal.tooLong = n at unwritable ⊢
  refine ⟨⟨.num n, 1, ⟨2, 1⟩⟩, by simp [ofLines, duplicate?], ?_⟩
  rw [DuplicateLabel.message?_eq, if_neg]
  simp only [DuplicateLabel.isWritable, unwritable, Bool.false_and]
  exact Bool.false_ne_true

end Program

end GotoBasic
