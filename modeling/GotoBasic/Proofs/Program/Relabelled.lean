import GotoBasic.Proofs.Program.Labels
import Mathlib.Data.List.Nodup

/-!
# Programs with other labels

`Program.relabelled` gives every label of a program, before its lines and in its jumps, another
name.  If the new labels are distinct and none of them is reserved (`Program.Relabels`), the new
lines are a program as well (`Program.ofLines_relabelled`), and every label has the number under its
new name that it had under its old one (`Program.position?_relabelled`).
-/

namespace GotoBasic

variable {r : Label → Label}

/-- The statement with other labels in its jumps. -/
def Stmt.relabelled (r : Label → Label) : Stmt → Stmt
  | .ifThen pos cond body => .ifThen pos cond (body.relabelled r)
  | .ifElse pos cond body other => .ifElse pos cond (body.relabelled r) (other.relabelled r)
  | .whileThen pos cond body => .whileThen pos cond (body.relabelled r)
  | .goto pos target => .goto pos (target.map r)
  | s => s

/-- The line with another label and other labels in its jumps. -/
def Line.relabelled (r : Label → Label) (l : Line) : Line :=
  { l with label := l.label.map r, stmts := l.stmts.map (Stmt.relabelled r) }

/-- The new name of a label, where the reserved one keeps its name. -/
def Label.relabelled (r : Label → Label) (a : Label) : Label :=
  if a = Label.exit then Label.exit else r a

theorem Label.relabelled_exit (r : Label → Label) : Label.exit.relabelled r = Label.exit :=
  if_pos rfl

theorem Label.relabelled_of_ne {a : Label} (other : a ≠ Label.exit) : a.relabelled r = r a :=
  if_neg other

namespace Program

/-- The labels that stand before lines, in textual order. -/
def declared (p : Program) : List Label := p.lines.filterMap Line.label

theorem mem_declared {p : Program} {l : Line} {a : Label} (mem : l ∈ p.lines)
    (label : l.label = some a) : a ∈ p.declared :=
  List.mem_filterMap.2 ⟨l, mem, label⟩

/-- The program with other labels. -/
def relabelled (r : Label → Label) (p : Program) : Program := ⟨p.lines.map (Line.relabelled r)⟩

/-- `r` gives distinct names to distinct labels of `p`, and none of them the reserved one. -/
structure Relabels (r : Label → Label) (p : Program) : Prop where
  injective : ∀ a ∈ p.declared, ∀ b ∈ p.declared, r a = r b → a = b
  unreserved : ∀ a ∈ p.declared, r a ≠ Label.exit

instance (r : Label → Label) (p : Program) : Decidable (Relabels r p) :=
  decidable_of_iff
    ((∀ a ∈ p.declared, ∀ b ∈ p.declared, r a = r b → a = b) ∧
      ∀ a ∈ p.declared, r a ≠ Label.exit)
    ⟨fun holds => ⟨holds.1, holds.2⟩, fun relabels => ⟨relabels.injective, relabels.unreserved⟩⟩

variable {p : Program} {a : Label}

theorem exitIndex_relabelled : (p.relabelled r).exitIndex = p.exitIndex := by
  unfold exitIndex relabelled
  rw [List.length_map]

theorem line?_relabelled (i : Nat) :
    (p.relabelled r).line? i = (p.line? i).map (Line.relabelled r) := by
  unfold line? relabelled
  split
  · rfl
  · exact List.getElem?_map

theorem declared_relabelled : (p.relabelled r).declared = p.declared.map r := by
  unfold declared relabelled
  rw [List.filterMap_map, List.map_filterMap]
  rfl

theorem get?_labelsFrom_relabelled {ls : List Line} (k : Nat)
    (distinct : ∀ l ∈ ls, ∀ b, l.label = some b → r b = r a → b = a) :
    Assoc.get? (labelsFrom k (ls.map (Line.relabelled r))) (r a) =
      Assoc.get? (labelsFrom k ls) a := by
  induction ls generalizing k with
  | nil => rfl
  | cons l ls ih =>
    have here : (l.relabelled r).label = some (r a) ↔ l.label = some a := by
      constructor
      · intro renamed
        rcases Option.map_eq_some_iff.1 renamed with ⟨b, label, same⟩
        rw [label, distinct l List.mem_cons_self b label same]
      · intro label
        exact congrArg (Option.map r) label
    rw [List.map_cons, get?_labelsFrom_cons, get?_labelsFrom_cons,
      ih (k + 1) fun l' mem => distinct l' (List.mem_cons_of_mem l mem)]
    simp only [here]

section Relabels

variable (relabels : Relabels r p)

include relabels

/-- Labels under their new names stand for what they stood for. -/
theorem position?_relabelled (known : a = Label.exit ∨ a ∈ p.declared) :
    (p.relabelled r).position? (a.relabelled r) = p.position? a := by
  rw [position?_eq, position?_eq, exitIndex_relabelled]
  by_cases exit : a = Label.exit
  · rw [exit, Label.relabelled_exit, if_pos rfl, if_pos rfl]
  · have declared : a ∈ p.declared := known.resolve_left exit
    rw [Label.relabelled_of_ne exit, if_neg (Ne.symm (relabels.unreserved a declared)),
      if_neg (Ne.symm exit)]
    refine get?_labelsFrom_relabelled 1 fun l mem b label same => ?_
    exact relabels.injective b (mem_declared mem label) a declared same

/-- A run starts at the same line. -/
theorem entryIndex_relabelled (free : ∀ l ∈ p.lines, l.label ≠ some Label.exit) :
    (p.relabelled r).entryIndex = p.entryIndex := by
  have entry : (p.relabelled r).entry = p.entry.map r := by
    unfold Program.entry Program.relabelled
    rw [List.findSome?_map, List.map_findSome?]
    rfl
  unfold entryIndex
  rw [entry]
  cases start : p.entry with
  | none => rfl
  | some a =>
    rcases List.exists_of_findSome?_eq_some start with ⟨l, mem, label⟩
    have other : a ≠ Label.exit := by
      intro same
      exact free l mem (label.trans (congrArg some same))
    have position := position?_relabelled relabels (.inr (mem_declared mem label))
    rw [Label.relabelled_of_ne other] at position
    exact congrArg (fun i => i.getD 1) position

/-- The lines are a program under their new names too. -/
theorem ofLines_relabelled (distinct : p.declared.Nodup) :
    ofLines (p.lines.map (Line.relabelled r)) = .ok (p.relabelled r) := by
  refine ofLines_eq_ok_iff.2 ⟨?_, rfl⟩
  have renamed : (p.declared.map r).Nodup :=
    List.Nodup.map_on (fun a mem b mem' same => relabels.injective a mem b mem' same) distinct
  rw [← declared_relabelled] at renamed
  exact renamed

end Relabels

end Program

end GotoBasic
