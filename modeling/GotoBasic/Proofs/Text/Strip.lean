import GotoBasic.Text.Blank
import Mathlib.Data.List.DropRight

/-!
# Blanks around a text

A text is cut in one way into blanks, a text without blanks at its ends, and blanks again.  What
`Text.strip` leaves is the part in the middle (`Text.strip_eq_iff`).
-/

namespace GotoBasic.Text

/-- No blank stands at either end of the text. -/
structure Trimmed (cs : List Char) : Prop where
  front : ∀ c, cs.head? = some c → isBlank c = false
  back : ∀ c, cs.getLast? = some c → isBlank c = false

variable {cs t : List Char}

/-- The visible characters of ASCII are not blank. -/
theorem isBlank_of_ascii {c : Char} (low : 0x20 < c.toNat) (high : c.toNat < 0x7F) :
    isBlank c = false := by
  simp only [isBlank, Bool.or_eq_false_iff, Bool.and_eq_false_iff, decide_eq_false_iff_not,
    beq_eq_false_iff_ne]
  omega

theorem trimmed_of_forall (free : ∀ c ∈ cs, isBlank c = false) : Trimmed cs :=
  ⟨fun c head => free c (List.mem_of_head? head), fun c last => free c (List.mem_of_getLast? last)⟩

/-- Blanks at the end are dropped by the library's function. -/
theorem strip_eq_rdropWhile (cs : List Char) :
    strip cs = (cs.dropWhile isBlank).rdropWhile isBlank := rfl

theorem trimmed_strip (cs : List Char) : Trimmed (strip cs) := by
  rw [strip_eq_rdropWhile]
  constructor
  · intro c head
    rcases List.rdropWhile_prefix isBlank (cs.dropWhile isBlank) with ⟨rest, whole⟩
    have first : (cs.dropWhile isBlank).head? = some c := by
      rw [← whole, List.head?_append, head]
      rfl
    have kept := List.head?_dropWhile_not isBlank cs
    rw [first] at kept
    exact kept
  · intro c last
    rcases List.getLast?_eq_some_iff.1 last with ⟨before, shape⟩
    have nonempty : (cs.dropWhile isBlank).rdropWhile isBlank ≠ [] := by
      rw [shape]
      exact List.append_ne_nil_of_right_ne_nil before (List.cons_ne_nil c [])
    have kept := List.rdropWhile_last_not isBlank (cs.dropWhile isBlank) nonempty
    rw [List.getLast?_eq_some_getLast nonempty, Option.some_inj] at last
    rw [last] at kept
    exact Bool.eq_false_iff.2 kept

/-- What is dropped is blank and stands at the ends. -/
theorem exists_blanks_strip (cs : List Char) :
    ∃ before after, cs = before ++ strip cs ++ after ∧ (∀ c ∈ before, isBlank c) ∧
      ∀ c ∈ after, isBlank c := by
  refine ⟨cs.takeWhile isBlank, (cs.dropWhile isBlank).rtakeWhile isBlank, ?_,
    fun c => List.mem_takeWhile_imp, fun c => List.mem_rtakeWhile_imp⟩
  rw [strip_eq_rdropWhile, List.append_assoc, List.rdropWhile_append_rtakeWhile,
    List.takeWhile_append_dropWhile]

theorem rdropWhile_append_of_blank {after : List Char} (blank : ∀ c ∈ after, isBlank c)
    (t : List Char) : (t ++ after).rdropWhile isBlank = t.rdropWhile isBlank := by
  unfold List.rdropWhile
  have blank' : ∀ c ∈ after.reverse, isBlank c := fun c mem => blank c (List.mem_reverse.1 mem)
  rw [List.reverse_append, List.dropWhile_append_of_pos blank']

theorem strip_append {before after : List Char} (blank : ∀ c ∈ before, isBlank c)
    (blank' : ∀ c ∈ after, isBlank c) (trimmed : Trimmed t) : strip (before ++ t ++ after) = t := by
  have back : t.rdropWhile isBlank = t := by
    refine List.rdropWhile_eq_self_iff.2 fun nonempty => ?_
    rw [trimmed.back _ (List.getLast?_eq_some_getLast nonempty)]
    exact Bool.false_ne_true
  rw [strip_eq_rdropWhile, List.append_assoc, List.dropWhile_append_of_pos blank]
  cases t with
  | nil => rw [List.nil_append, List.dropWhile_eq_nil_iff.2 blank', List.rdropWhile_nil]
  | cons c t =>
    have front : ¬ isBlank c := by
      rw [trimmed.front c rfl]
      exact Bool.false_ne_true
    rw [List.cons_append, List.dropWhile_cons_of_neg front, ← List.cons_append,
      rdropWhile_append_of_blank blank', back]

theorem strip_eq_iff :
    strip cs = t ↔ Trimmed t ∧ ∃ before after, cs = before ++ t ++ after ∧
      (∀ c ∈ before, isBlank c) ∧ ∀ c ∈ after, isBlank c := by
  constructor
  · rintro rfl
    exact ⟨trimmed_strip cs, exists_blanks_strip cs⟩
  · rintro ⟨trimmed, before, after, rfl, blank, blank'⟩
    exact strip_append blank blank' trimmed

end GotoBasic.Text
