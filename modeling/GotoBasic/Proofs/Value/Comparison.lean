import GotoBasic.Proofs.Binary64.Integer
import GotoBasic.Value.Apply
import Mathlib.Algebra.Order.Field.Basic
import Mathlib.Algebra.Order.Ring.Rat
import Mathlib.Order.WithBot

/-!
# Numbers have one order

Integers and floats are compared by their exact sizes, which are rational numbers and the two
infinities (`Value.size?`).  Since sizes have a total order, the four comparisons of numbers fit
together in whatever mixture of integers and floats they are made (`Value.compare_numbers`).  The
float that is not a number has no size and no part in this.
-/

namespace GotoBasic

open Binary64 (one signed)

/-! ## Points and sizes -/

/-- How many times a point is as far from zero as the number one. -/
def Point.size : Point → WithBot (WithTop ℚ)
  | .leftEnd => ⊥
  | .units z => ((z / one : ℚ) : WithTop ℚ)
  | .rightEnd => ⊤

theorem Binary64.cast_one_pos : (0 : ℚ) < one := Nat.cast_pos.2 Binary64.one_units_pos

theorem Point.size_units_lt (a b : Int) : (units a).size < (units b).size ↔ a < b := by
  unfold size
  rw [WithBot.coe_lt_coe, WithTop.coe_lt_coe, div_lt_div_iff_of_pos_right Binary64.cast_one_pos,
    Int.cast_lt]

theorem Point.precedes_iff (p q : Point) : p.precedes q ↔ p.size < q.size := by
  have left (z : Int) : leftEnd.size < (units z).size := WithBot.bot_lt_coe _
  have right (z : Int) : (units z).size < rightEnd.size :=
    WithBot.coe_lt_coe.2 (WithTop.coe_lt_top _)
  cases p with
  | leftEnd =>
    cases q with
    | leftEnd => exact iff_of_false Bool.false_ne_true (lt_irrefl _)
    | units b => exact iff_of_true rfl (left b)
    | rightEnd => exact iff_of_true rfl ((left 0).trans (right 0))
  | units a =>
    cases q with
    | leftEnd => exact iff_of_false Bool.false_ne_true not_lt_bot
    | units b =>
      rw [size_units_lt]
      exact decide_eq_true_iff
    | rightEnd => exact iff_of_true rfl (right a)
  | rightEnd => cases q <;> exact iff_of_false Bool.false_ne_true not_top_lt

/-- Of two points with the same size neither precedes the other, so they are one point. -/
theorem Point.size_inj (p q : Point) : p.size = q.size ↔ p = q := by
  constructor
  · intro same
    have notLeft : ¬ p.precedes q := by
      rw [precedes_iff, same]
      exact lt_irrefl _
    have notRight : ¬ q.precedes p := by
      rw [precedes_iff, same]
      exact lt_irrefl _
    cases p <;> cases q <;> simp [precedes] at notLeft notRight ⊢
    omega
  · intro same
    rw [same]

namespace Value

variable {v w x y z : Value} {p q : WithBot (WithTop ℚ)}

/-- An integer, or a float that is finite or infinite. -/
def IsNumber (v : Value) : Prop := v.kind.isNumeric ∧ v ≠ .float .nan

/-- The exact size of a number. -/
def size? : Value → Option (WithBot (WithTop ℚ))
  | .int n => some ((n : ℚ) : WithTop ℚ)
  | .float (.finite s u) => some ((signed s u / one : ℚ) : WithTop ℚ)
  | .float (.infinite s) => some (if s then ⊥ else ⊤)
  | _ => none

/-- Every number has a point on the line, and its size is that of the point. -/
theorem IsNumber.exists_point (number : v.IsNumber) :
    ∃ a, v.point? = some a ∧ v.size? = some a.size := by
  rcases number with ⟨numeric, notNan⟩
  cases v with
  | int n =>
    have size : ((n * one : Int) / one : ℚ) = n := by
      rw [Int.cast_mul, Int.cast_natCast]
      exact mul_div_cancel_right₀ _ (ne_of_gt Binary64.cast_one_pos)
    refine ⟨_, rfl, ?_⟩
    rw [Point.size, size]
    rfl
  | float x =>
    cases x with
    | finite s u => exact ⟨_, rfl, rfl⟩
    | infinite s => cases s <;> exact ⟨_, rfl, rfl⟩
    | nan => exact absurd rfl notNan
  | bool b => cases numeric
  | string s => cases numeric

/-! ## Comparisons -/

/-- The four comparisons of two numbers, by their sizes.  None of them fails. -/
structure Compares (v w : Value) (p q : WithBot (WithTop ℚ)) : Prop where
  less : binary .less v w = .ok (.bool (decide (p < q)))
  greater : binary .greater v w = .ok (.bool (decide (q < p)))
  eq : binary .eq v w = .ok (.bool (decide (p = q)))
  ne : binary .ne v w = .ok (.bool (decide (p ≠ q)))

theorem IsNumber.isNumeric_and (left : v.IsNumber) (right : w.IsNumber) :
    (v.kind.isNumeric && w.kind.isNumeric) = true := by
  rw [left.1, right.1]
  rfl

theorem IsNumber.point_of_size (number : v.IsNumber) (size : v.size? = some p) :
    ∃ a, v.point? = some a ∧ a.size = p := by
  rcases number.exists_point with ⟨a, point, same⟩
  rw [size] at same
  exact ⟨a, point, (Option.some.inj same).symm⟩

theorem IsNumber.less?_eq (left : v.IsNumber) (right : w.IsNumber) (sizeLeft : v.size? = some p)
    (sizeRight : w.size? = some q) : less? v w = some (decide (p < q)) := by
  rcases left.point_of_size sizeLeft with ⟨a, pointLeft, rfl⟩
  rcases right.point_of_size sizeRight with ⟨b, pointRight, rfl⟩
  have less : v.numericLess w = decide (a.size < b.size) := by
    unfold numericLess
    rw [pointLeft, pointRight, Bool.eq_iff_iff, decide_eq_true_iff]
    exact a.precedes_iff b
  unfold less?
  split
  next s t => cases left.1
  · rw [if_pos (left.isNumeric_and right), less]

theorem IsNumber.equals_eq (left : v.IsNumber) (right : w.IsNumber) (sizeLeft : v.size? = some p)
    (sizeRight : w.size? = some q) : v.equals w = decide (p = q) := by
  rcases left.point_of_size sizeLeft with ⟨a, pointLeft, rfl⟩
  rcases right.point_of_size sizeRight with ⟨b, pointRight, rfl⟩
  unfold equals numericEq
  rw [if_pos (left.isNumeric_and right), pointLeft, pointRight, Bool.eq_iff_iff,
    decide_eq_true_iff, beq_iff_eq]
  exact (a.size_inj b).symm

/-- Numbers are compared by their exact sizes. -/
theorem IsNumber.compares (left : v.IsNumber) (right : w.IsNumber) (sizeLeft : v.size? = some p)
    (sizeRight : w.size? = some q) : Compares v w p q where
  less := by
    unfold binary
    rw [left.less?_eq right sizeLeft sizeRight]
  greater := by
    unfold binary
    rw [right.less?_eq left sizeRight sizeLeft]
  eq := by
    unfold binary
    rw [left.equals_eq right sizeLeft sizeRight]
  ne := by
    unfold binary
    rw [left.equals_eq right sizeLeft sizeRight, decide_not]

/-! ## The order of numbers -/

/-- The comparison comes out true. -/
def Holds (op : BinaryOp) (v w : Value) : Prop := binary op v w = .ok (.bool true)

theorem holds_iff {op : BinaryOp} {c : Prop} [Decidable c]
    (value : binary op v w = .ok (.bool (decide c))) : Holds op v w ↔ c := by
  unfold Holds
  rw [value, Except.ok.injEq, bool.injEq, decide_eq_true_iff]

/-- Exactly one of three statements is true. -/
def ExactlyOne (a b c : Prop) : Prop := a ∧ ¬ b ∧ ¬ c ∨ ¬ a ∧ b ∧ ¬ c ∨ ¬ a ∧ ¬ b ∧ c

/-- The comparisons of numbers are one total order, that of their exact sizes.  None of them fails;
of two numbers exactly one is less, or both are equal; equality is an equivalence, and precedence
is transitive and does not tell equal numbers apart. -/
theorem compare_numbers (hx : x.IsNumber) (hy : y.IsNumber) (hz : z.IsNumber) :
    (∃ p q, x.size? = some p ∧ y.size? = some q ∧ Compares x y p q) ∧
      ExactlyOne (Holds .less x y) (Holds .eq x y) (Holds .greater x y) ∧
      binary .greater x y = binary .less y x ∧
      (Holds .ne x y ↔ ¬ Holds .eq x y) ∧
      Holds .eq x x ∧
      (Holds .eq x y → Holds .eq y x) ∧
      (Holds .eq x y → Holds .eq y z → Holds .eq x z) ∧
      (Holds .less x y → Holds .less y z → Holds .less x z) ∧
      (Holds .eq x y → Holds .less y z → Holds .less x z) := by
  rcases hx.exists_point with ⟨a, -, sizeX⟩
  rcases hy.exists_point with ⟨b, -, sizeY⟩
  rcases hz.exists_point with ⟨c, -, sizeZ⟩
  have xx := hx.compares hx sizeX sizeX
  have xy := hx.compares hy sizeX sizeY
  have yx := hy.compares hx sizeY sizeX
  have yz := hy.compares hz sizeY sizeZ
  have xz := hx.compares hz sizeX sizeZ
  have one : ExactlyOne (a.size < b.size) (a.size = b.size) (b.size < a.size) := by
    rcases lt_trichotomy a.size b.size with less | same | greater
    · exact .inl ⟨less, ne_of_lt less, lt_asymm less⟩
    · exact .inr (.inl ⟨not_lt_of_ge (ge_of_eq same), same, not_lt_of_ge (le_of_eq same)⟩)
    · exact .inr (.inr ⟨lt_asymm greater, ne_of_gt greater, greater⟩)
  rw [holds_iff xy.less, holds_iff xy.eq, holds_iff xy.greater, holds_iff xy.ne, holds_iff xx.eq,
    holds_iff yx.eq, holds_iff yz.eq, holds_iff xz.eq, holds_iff yz.less, holds_iff xz.less]
  refine ⟨⟨_, _, sizeX, sizeY, xy⟩, one, ?_, Iff.rfl, rfl, Eq.symm, Eq.trans, lt_trans, ?_⟩
  · rw [xy.greater, yx.less]
  · intro same less
    rw [same]
    exact less

/-- A float, the same integer, and the next integer, which no float holds; and an integer that is
greater than all finite floats. -/
theorem compare_numbers_exactly :
    let x : Value := .float (.finite false (2 ^ 53 * one))
    let y : Value := .int (2 ^ 53)
    let z : Value := .int (2 ^ 53 + 1)
    let huge : Value := .int (10 ^ 400)
    let top : Value := .float (.infinite false)
    (x.IsNumber ∧ y.IsNumber ∧ z.IsNumber) ∧ Holds .eq x y ∧ Holds .less y z ∧ Holds .less x z ∧
      (z.IsNumber ∧ huge.IsNumber ∧ top.IsNumber) ∧ Holds .less z huge ∧ Holds .less huge top ∧
      Holds .less z top := by
  intro x y z huge top
  have hx : x.IsNumber := ⟨rfl, by decide⟩
  have hy : y.IsNumber := ⟨rfl, by decide⟩
  have hz : z.IsNumber := ⟨rfl, by decide⟩
  have hhuge : huge.IsNumber := ⟨rfl, by decide⟩
  have htop : top.IsNumber := ⟨rfl, by decide⟩
  have same : Holds .eq x y := by
    unfold Holds
    decide +kernel
  have next : Holds .less y z := by
    unfold Holds
    decide +kernel
  have far : Holds .less z huge := by
    unfold Holds
    decide +kernel
  have beyond : Holds .less huge top := by
    unfold Holds
    decide +kernel
  rcases compare_numbers hx hy hz with ⟨-, -, -, -, -, -, -, -, respects⟩
  rcases compare_numbers hz hhuge htop with ⟨-, -, -, -, -, -, -, transitive, -⟩
  exact ⟨⟨hx, hy, hz⟩, same, next, respects same next, ⟨hz, hhuge, htop⟩, far, beyond,
    transitive far beyond⟩

end Value

end GotoBasic
