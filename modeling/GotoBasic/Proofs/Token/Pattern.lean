import GotoBasic.Assoc
import Mathlib.Data.List.Basic

/-!
# Patterns matched by backtracking

A `Pattern` is matched against the front of a text by trying its alternatives in order.
`Pattern.ways` lists all ways to match, in the order in which they are tried, so that the match is
the first of them (`Pattern.first?`).  A repetition tries to go on before it tries to stop
(`Pattern.ways_many`).
-/

namespace GotoBasic

/-- A pattern for the front of a text. -/
inductive Pattern where
  /-- One character of a class. -/
  | one (accepts : Char → Bool)
  /-- One pattern behind the other. -/
  | seq (first second : Pattern)
  /-- The first pattern or, if what follows cannot be matched then, the second. -/
  | either (first second : Pattern)
  /-- A pattern as often as possible, and less often if what follows cannot be matched then. -/
  | many (body : Pattern)
  /-- Nothing, at a place where the pattern does not match. -/
  | absent (ahead : Pattern)
  /-- A pattern whose text is remembered under a number. -/
  | group (number : Nat) (body : Pattern)
  /-- The text that is remembered under a number. -/
  | again (number : Nat)

namespace Pattern

/-- How far a match has come: what is remembered, and the text that is still to be matched. -/
structure Cursor where
  groups : List (Nat × List Char)
  rest : List Char
  deriving DecidableEq, Repr

/-- The text that is remembered under a number. -/
def Cursor.text? (c : Cursor) (number : Nat) : Option (List Char) := Assoc.get? c.groups number

/-- All ways to repeat a step at most `n` times; a step that passes nothing ends a repetition. -/
def repeats (step : Cursor → List Cursor) : Nat → Cursor → List Cursor
  | 0, c => [c]
  | n + 1, c =>
    ((step c).filter fun d => d.rest.length < c.rest.length).flatMap (repeats step n) ++ [c]

/-- All ways to match a pattern, in the order in which they are tried. -/
def ways : Pattern → Cursor → List Cursor
  | .one accepts, c =>
    match c.rest with
    | [] => []
    | x :: rest => if accepts x then [{ c with rest := rest }] else []
  | .seq p q, c => (p.ways c).flatMap q.ways
  | .either p q, c => p.ways c ++ q.ways c
  | .many p, c => repeats p.ways c.rest.length c
  | .absent p, c => if (p.ways c).isEmpty then [c] else []
  | .group i p, c =>
    (p.ways c).map fun d =>
      { d with groups := Assoc.insert d.groups i (c.rest.take (c.rest.length - d.rest.length)) }
  | .again i, c =>
    match c.text? i with
    | some w => if w.isPrefixOf c.rest then [{ c with rest := c.rest.drop w.length }] else []
    | none => []

/-- The match of a pattern at the front of a text. -/
def first? (p : Pattern) (cs : List Char) : Option Cursor := (p.ways ⟨[], cs⟩).head?

/-- A step passes a character, so there are no more repetitions than characters. -/
theorem repeats_succ (step : Cursor → List Cursor) {n : Nat} {c : Cursor}
    (enough : c.rest.length ≤ n) : repeats step (n + 1) c = repeats step n c := by
  induction n generalizing c with
  | zero =>
    have stuck : (step c).filter (fun d => d.rest.length < c.rest.length) = [] := by
      rw [List.filter_eq_nil_iff]
      intro d _
      rw [decide_eq_true_eq]
      omega
    simp [repeats, stuck]
  | succ n ih =>
    rw [repeats, repeats]
    refine congrArg (· ++ [c]) (List.flatMap_congr fun d mem => ih ?_)
    have shorter : d.rest.length < c.rest.length := by simpa using (List.mem_filter.1 mem).2
    omega

theorem repeats_eq (step : Cursor → List Cursor) {n : Nat} {c : Cursor}
    (enough : c.rest.length ≤ n) : repeats step n c = repeats step c.rest.length c := by
  induction enough with
  | refl => rfl
  | step enough ih => rw [repeats_succ step enough, ih]

/-- A repetition tries all ways to go on before it tries to stop. -/
theorem ways_many (p : Pattern) (c : Cursor) :
    (many p).ways c =
      ((p.ways c).filter fun d => d.rest.length < c.rest.length).flatMap (many p).ways ++ [c] := by
  rw [ways, ← repeats_succ p.ways (Nat.le_refl _), repeats]
  refine congrArg (· ++ [c]) (List.flatMap_congr fun d mem => ?_)
  have shorter : d.rest.length < c.rest.length := by simpa using (List.mem_filter.1 mem).2
  rw [repeats_eq p.ways (Nat.le_of_lt shorter), ways]

/-- A repetition of a pattern that always passes something. -/
theorem ways_many_of_shorter {p : Pattern} {c : Cursor}
    (shorter : ∀ d ∈ p.ways c, d.rest.length < c.rest.length) :
    (many p).ways c = (p.ways c).flatMap (many p).ways ++ [c] := by
  have all : (p.ways c).filter (fun d => d.rest.length < c.rest.length) = p.ways c :=
    List.filter_eq_self.2 fun d mem => decide_eq_true (shorter d mem)
  rw [ways_many, all]

/-! ## What is remembered -/

/-- Whether a pattern remembers text. -/
def remembers : Pattern → Bool
  | .seq p q => p.remembers || q.remembers
  | .either p q => p.remembers || q.remembers
  | .many p => p.remembers
  | .group _ _ => true
  | _ => false

theorem groups_of_mem_repeats {step : Cursor → List Cursor}
    (keeps : ∀ c, ∀ d ∈ step c, d.groups = c.groups) {n : Nat} {c d : Cursor}
    (mem : d ∈ repeats step n c) : d.groups = c.groups := by
  induction n generalizing c with
  | zero => rw [List.mem_singleton.1 mem]
  | succ n ih =>
    rcases List.mem_append.1 mem with later | here
    · obtain ⟨e, passed, later⟩ := List.mem_flatMap.1 later
      rw [ih later, keeps c e (List.mem_filter.1 passed).1]
    · rw [List.mem_singleton.1 here]

/-- What is remembered stays so unless the pattern remembers text itself. -/
theorem groups_of_mem_ways {p : Pattern} (forgets : p.remembers = false) {c d : Cursor}
    (mem : d ∈ p.ways c) : d.groups = c.groups := by
  induction p generalizing c d with
  | one accepts =>
    rw [ways] at mem
    split at mem
    · cases mem
    · split at mem
      · rw [List.mem_singleton.1 mem]
      · cases mem
  | seq p q ihp ihq =>
    obtain ⟨forgets, forgets'⟩ := Bool.or_eq_false_iff.1 forgets
    obtain ⟨e, first, second⟩ := List.mem_flatMap.1 mem
    rw [ihq forgets' second, ihp forgets first]
  | either p q ihp ihq =>
    obtain ⟨forgets, forgets'⟩ := Bool.or_eq_false_iff.1 forgets
    rcases List.mem_append.1 mem with left | right
    · exact ihp forgets left
    · exact ihq forgets' right
  | many p ih => exact groups_of_mem_repeats (fun c d => ih forgets) mem
  | absent p ih =>
    rw [ways] at mem
    split at mem
    · rw [List.mem_singleton.1 mem]
    · cases mem
  | group i p ih => cases forgets
  | again i =>
    rw [ways] at mem
    split at mem
    · split at mem
      · rw [List.mem_singleton.1 mem]
      · cases mem
    · cases mem

end Pattern

end GotoBasic
