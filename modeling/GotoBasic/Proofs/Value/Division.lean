import GotoBasic.Proofs.Binary64.Nearest
import GotoBasic.Value.Apply
import Mathlib.Algebra.Order.Module.Defs

/-!
# Dividing integers

The quotient of two integers is the float nearest to their exact ratio, however large they are
(`Value.RoundedQuotient`).  So nothing but the ratio and the two signs matters: enlarging both
integers changes neither the float nor whether there is one (`Value.binary_div_int`).
-/

namespace GotoBasic.Value

open Binary64 (Nearest one overflowUnits roundUnits roundUnits_nearest ofRatio ofUnits)

/-- What the division of two integers gives.  The count nearest to the exact ratio decides it: a
float of that size, which is negative if one of the integers is, or an overflow if doubles do not
reach so far. -/
inductive RoundedQuotient (a b : Int) : Except Cause Value → Prop where
  | float {u : Nat} (nearest : Nearest (|(a : ℚ) / b| * one) u) (small : u < overflowUnits) :
      RoundedQuotient a b (.ok (.float (.finite (decide (a < 0) ^^ decide (b < 0)) u)))
  | overflow {u : Nat} (nearest : Nearest (|(a : ℚ) / b| * one) u) (large : overflowUnits ≤ u) :
      RoundedQuotient a b (.error (.numericOverflow .div))

theorem RoundedQuotient.unique {a b : Int} {r s : Except Cause Value}
    (first : RoundedQuotient a b r) (second : RoundedQuotient a b s) : r = s := by
  cases first with
  | float nearest small =>
    cases second with
    | float nearest' _ => rw [nearest.unique nearest']
    | overflow nearest' large =>
      rw [nearest.unique nearest'] at small
      exact absurd large (Nat.not_le.2 small)
  | overflow nearest large =>
    cases second with
    | float nearest' small =>
      rw [nearest.unique nearest'] at large
      exact absurd large (Nat.not_le.2 small)
    | overflow _ _ => rfl

variable {a b : Int}

theorem nearest_roundUnits_natAbs (nonzero : b ≠ 0) :
    Nearest (|(a : ℚ) / b| * one) (roundUnits (a.natAbs * one) b.natAbs) := by
  have ratio : |(a : ℚ) / b| * one = (a.natAbs * one : Nat) / (b.natAbs : ℚ) := by
    rw [abs_div, Nat.cast_mul, Nat.cast_natAbs, Nat.cast_natAbs, Int.cast_abs, Int.cast_abs]
    exact div_mul_eq_mul_div _ _ _
  rw [ratio]
  exact roundUnits_nearest _ (Int.natAbs_pos.2 nonzero)

theorem roundedQuotient_binary (nonzero : b ≠ 0) :
    RoundedQuotient a b (binary (.arith .div) (.int a) (.int b)) := by
  have nearest := nearest_roundUnits_natAbs (a := a) nonzero
  rw [binary_arith_int .div a nonzero]
  unfold arithInt ofRatio ofUnits
  by_cases small : roundUnits (a.natAbs * one) b.natAbs < overflowUnits
  · rw [if_pos small]
    exact .float nearest small
  · rw [if_neg small]
    exact .overflow nearest (Nat.not_lt.1 small)

theorem arithInt_div_mul_left {k : Int} (pos : 0 < k) (a b : Int) :
    arithInt .div (k * a) (k * b) = arithInt .div a b := by
  have sign (n : Int) : decide (k * n < 0) = decide (n < 0) :=
    decide_eq_decide.2 (smul_neg_iff_of_pos_left pos)
  have size : 0 < k.natAbs := Int.natAbs_pos.2 (ne_of_gt pos)
  unfold arithInt
  rw [sign, sign, Int.natAbs_mul, Int.natAbs_mul, Binary64.ofRatio_mul_left size]

/-- The division of two integers, the second not zero, gives the rounded quotient of the two and
nothing else; and it gives the same after both have been multiplied by a positive integer. -/
theorem binary_div_int {k : Int} (nonzero : b ≠ 0) (pos : 0 < k) :
    binary (.arith .div) (.int (k * a)) (.int (k * b)) =
        binary (.arith .div) (.int a) (.int b) ∧
      ∀ r, binary (.arith .div) (.int a) (.int b) = r ↔ RoundedQuotient a b r := by
  have rounded : RoundedQuotient a b (binary (.arith .div) (.int a) (.int b)) :=
    roundedQuotient_binary nonzero
  constructor
  · have nonzero' : k * b ≠ 0 := Int.mul_ne_zero (ne_of_gt pos) nonzero
    rw [binary_arith_int .div a nonzero, binary_arith_int .div (k * a) nonzero']
    exact arithInt_div_mul_left pos a b
  · intro r
    constructor
    · rintro rfl
      exact rounded
    · exact rounded.unique

/-- Neither integer has a float here, and the ratio, half the way between two floats, goes to the
even one. -/
theorem binary_div_int_beyond_range :
    binary (.arith .div) (.int (10 ^ 400 * (2 ^ 53 + 1))) (.int (10 ^ 400 * -1)) =
      .ok (.float (.finite true (2 ^ 53 * one))) := by
  have same := (binary_div_int (a := 2 ^ 53 + 1) (b := -1) (k := 10 ^ 400) (by decide)
    (Int.pow_pos (by decide))).1
  rw [same]
  decide +kernel

end GotoBasic.Value
