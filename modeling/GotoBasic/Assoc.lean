/-!
# Association lists

Lists of pairs that stand for finite maps.  A key keeps its place when its value changes.
-/

namespace GotoBasic.Assoc

variable {α β : Type} [DecidableEq α]

/-- Gives a key a value: in its place if the key is there, else behind all others. -/
def insert : List (α × β) → α → β → List (α × β)
  | [], k, v => [(k, v)]
  | (j, w) :: l, k, v => if j = k then (k, v) :: l else (j, w) :: insert l k v

/-- The value of a key. -/
def get? : List (α × β) → α → Option β
  | [], _ => none
  | (j, w) :: l, k => if j = k then some w else get? l k

/-- After an insertion the key has the new value, and every other key what it had. -/
theorem get?_insert (l : List (α × β)) (k : α) (v : β) (j : α) :
    get? (insert l k v) j = if k = j then some v else get? l j := by
  induction l with
  | nil => rfl
  | cons p l ih =>
    obtain ⟨i, w⟩ := p
    by_cases hik : i = k
    · subst hik
      by_cases hij : i = j <;> simp [insert, get?, hij]
    · by_cases hij : i = j
      · subst hij
        simp [insert, get?, hik, Ne.symm hik]
      · simp [insert, get?, hik, hij, ih]

end GotoBasic.Assoc
