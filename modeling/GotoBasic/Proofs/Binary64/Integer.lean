import GotoBasic.Binary64.Basic
import Mathlib.Algebra.Group.Nat.Defs

/-!
# Integers and doubles

Rounding leaves at most 53 significant bits (`Binary64.roundUnits_le`, `Binary64.dvd_roundUnits`),
and it makes nothing zero that is at least one unit (`Binary64.roundUnits_pos`).  So an integer
other than zero does not become zero as a double (`Binary64.isZero_ofInt`), and the whole part of a
quotient is always within the range of doubles (`Binary64.isFinite_ofInt_of_truncate?`).
-/

namespace GotoBasic.Binary64

/-! ## The range of counts

The two powers are never computed: their exponents are generalized first, or left to unification.
-/

/-- The number one is not zero units. -/
theorem one_units_pos : 0 < one := by
  apply Nat.two_pow_pos

theorem overflowUnits_pos : 0 < overflowUnits := by
  apply Nat.two_pow_pos

/-- Counts that are multiples of a large power of two are whole numbers. -/
theorem one_dvd_two_pow {k : Nat} (large : 1074 ≤ k) : one ∣ 2 ^ k := by
  unfold one
  generalize 1074 = e at large ⊢
  exact Nat.pow_dvd_pow 2 large

theorem two_pow_lt_overflowUnits {k : Nat} (small : k < 2098) : 2 ^ k < overflowUnits := by
  unfold overflowUnits
  generalize 2098 = e at small ⊢
  exact Nat.pow_lt_pow_right (by decide) small

theorem log2_lt_of_lt {n k : Nat} (pos : 0 < k) (small : n < 2 ^ k) : n.log2 < k := by
  by_cases zero : n = 0
  · rw [zero, Nat.log2_zero]
    exact pos
  · exact (Nat.log2_lt zero).2 small

/-- The highest bit of a count within the range of doubles. -/
theorem log2_lt_of_lt_overflowUnits {u : Nat} (small : u < overflowUnits) : u.log2 < 2098 := by
  unfold overflowUnits at small
  generalize exponent : 2098 = e at small ⊢
  exact log2_lt_of_lt (by omega) small

/-! ## How far rounding goes -/

/-- Rounding goes down no farther than to the whole part. -/
theorem le_roundHalfEven (num den : Nat) : num / den ≤ roundHalfEven num den := by
  unfold roundHalfEven
  dsimp only
  split
  · exact Nat.le_refl _
  · exact Nat.le_succ _

/-- Rounding goes up by one at most. -/
theorem roundHalfEven_le (num den : Nat) : roundHalfEven num den ≤ num / den + 1 := by
  unfold roundHalfEven
  dsimp only
  split
  · exact Nat.le_succ _
  · exact Nat.le_refl _

/-- A quotient that is whole is not rounded. -/
theorem roundHalfEven_mul (q : Nat) {den : Nat} (pos : 0 < den) :
    roundHalfEven (q * den) den = q := by
  unfold roundHalfEven
  dsimp only
  rw [Nat.mul_mod_left, Nat.mul_div_cancel q pos, if_pos]
  exact .inl pos

/-- The exponent of the spacing of counts near `num / den`. -/
def spacingExp (num den : Nat) : Nat := (num / den).log2 - 52

/-- A rounded count has at most 53 significant bits. -/
theorem exists_roundUnits_eq (num den : Nat) :
    ∃ r ≤ 2 ^ 53, roundUnits num den = r * 2 ^ spacingExp num den := by
  refine ⟨roundHalfEven num (den * 2 ^ spacingExp num den), ?_, rfl⟩
  have size : num / den < 2 ^ (spacingExp num den + 53) := by
    have small : num / den < 2 ^ ((num / den).log2 + 1) := Nat.lt_log2_self
    refine Nat.lt_of_lt_of_le small (Nat.pow_le_pow_right Nat.two_pos ?_)
    unfold spacingExp
    omega
  have quotient : num / (den * 2 ^ spacingExp num den) < 2 ^ 53 := by
    rw [← Nat.div_div_eq_div_mul, Nat.div_lt_iff_lt_mul (Nat.two_pow_pos _), ← Nat.pow_add]
    rw [Nat.add_comm]
    exact size
  exact Nat.le_trans (roundHalfEven_le _ _) quotient

/-- The one bit more than 53 is there for a count that is rounded up to the next power of two. -/
theorem roundUnits_le (num den : Nat) : roundUnits num den ≤ 2 ^ (spacingExp num den + 53) := by
  obtain ⟨r, bits, rounded⟩ := exists_roundUnits_eq num den
  rw [rounded, Nat.add_comm, Nat.pow_add]
  exact Nat.mul_le_mul_right _ bits

/-- A rounded count is a multiple of any power of two that is 52 bits below it. -/
theorem dvd_roundUnits {k num den : Nat} (large : 2 ^ (k + 52) ≤ roundUnits num den) :
    2 ^ k ∣ roundUnits num den := by
  by_cases fine : k ≤ spacingExp num den
  · obtain ⟨r, -, rounded⟩ := exists_roundUnits_eq num den
    rw [rounded]
    exact Nat.dvd_mul_left_of_dvd (Nat.pow_dvd_pow 2 fine) r
  · have upper : roundUnits num den ≤ 2 ^ (k + 52) := by
      refine Nat.le_trans (roundUnits_le num den) (Nat.pow_le_pow_right Nat.two_pos ?_)
      omega
    rw [Nat.le_antisymm upper large, Nat.pow_add]
    exact Nat.dvd_mul_right _ _

/-- A count that is a multiple of its spacing is not rounded. -/
theorem roundUnits_eq_self {u : Nat} (fits : 2 ^ spacingExp u 1 ∣ u) : roundUnits u 1 = u := by
  have exact : roundHalfEven u (2 ^ spacingExp u 1) = u / 2 ^ spacingExp u 1 := by
    have whole := roundHalfEven_mul (u / 2 ^ spacingExp u 1) (Nat.two_pow_pos (spacingExp u 1))
    rw [Nat.div_mul_cancel fits] at whole
    exact whole
  change roundHalfEven u (1 * 2 ^ spacingExp u 1) * 2 ^ spacingExp u 1 = u
  rw [Nat.one_mul, exact, Nat.div_mul_cancel fits]

/-- A count that is a multiple of some power of two that is not below its spacing is not rounded. -/
theorem roundUnits_eq_self_of_dvd {k u : Nat} (spacing : spacingExp u 1 ≤ k) (fits : 2 ^ k ∣ u) :
    roundUnits u 1 = u :=
  roundUnits_eq_self (Nat.dvd_trans (Nat.pow_dvd_pow 2 spacing) fits)

/-- A count of at least one unit is at least its own spacing, so it is not rounded to zero. -/
theorem roundUnits_pos {u : Nat} (pos : 0 < u) : 0 < roundUnits u 1 := by
  have spacing : 2 ^ spacingExp u 1 ≤ u := by
    unfold spacingExp
    rw [Nat.div_one]
    exact Nat.le_trans (Nat.pow_le_pow_right Nat.two_pos (Nat.sub_le _ _))
      (Nat.log2_self_le (Nat.ne_of_gt pos))
  have quotient : 0 < u / 2 ^ spacingExp u 1 := Nat.div_pos spacing (Nat.two_pow_pos _)
  change 0 < roundHalfEven u (1 * 2 ^ spacingExp u 1) * 2 ^ spacingExp u 1
  rw [Nat.one_mul]
  exact Nat.mul_pos (Nat.lt_of_lt_of_le quotient (le_roundHalfEven _ _)) (Nat.two_pow_pos _)

/-! ## Integers as doubles -/

/-- An integer is a count of units that is zero only for zero, and rounding keeps that. -/
theorem isZero_ofInt {n : Int} (nonzero : n ≠ 0) : (ofInt n).isZero = false := by
  have units : 0 < roundUnits (n.natAbs * one) 1 :=
    roundUnits_pos (Nat.mul_pos (Int.natAbs_pos.2 nonzero) one_units_pos)
  unfold ofInt ofRatio ofUnits
  split
  · generalize roundUnits (n.natAbs * one) 1 = u at units
    cases u with
    | zero => exact absurd units (Nat.lt_irrefl 0)
    | succ u => rfl
  · rfl

/-- Dropping the fraction of a rounded count does not bring it out of range. -/
theorem roundUnits_whole_lt {num den : Nat} (small : roundUnits num den < overflowUnits) :
    roundUnits (roundUnits num den / one * one) 1 < overflowUnits := by
  generalize rounded : roundUnits num den = u at small
  have below : u / one * one ≤ u := Nat.div_mul_le_self u one
  by_cases large : 2 ^ (2045 + 52) ≤ u
  · -- The spacing there is a multiple of one, so there is no fraction to drop.
    have fits : 2 ^ 2045 ∣ u := by
      rw [← rounded] at large ⊢
      exact dvd_roundUnits (k := 2045) large
    have unit := one_dvd_two_pow (k := 2045) (by decide)
    have whole : u / one * one = u := Nat.div_mul_cancel (Nat.dvd_trans unit fits)
    have spacing : spacingExp u 1 ≤ 2045 := by
      have log := log2_lt_of_lt_overflowUnits small
      unfold spacingExp
      rw [Nat.div_one]
      omega
    rw [whole, roundUnits_eq_self_of_dvd spacing fits]
    exact small
  · -- One bit remains for rounding up.
    have log : (u / one * one).log2 < 2045 + 52 :=
      log2_lt_of_lt (by decide) (Nat.lt_of_le_of_lt below (Nat.lt_of_not_le large))
    refine Nat.lt_of_le_of_lt (roundUnits_le _ 1) (two_pow_lt_overflowUnits ?_)
    unfold spacingExp
    rw [Nat.div_one]
    omega

/-- The sign leaves the magnitude alone. -/
theorem natAbs_signed (negative : Bool) (units : Nat) :
    (signed negative units).natAbs = units := by
  unfold signed
  cases negative with
  | true => exact Int.natAbs_neg units
  | false => rfl

theorem isFinite_ofUnits {negative : Bool} {units : Nat} (small : units < overflowUnits) :
    (ofUnits negative units).isFinite := by
  unfold ofUnits
  rw [if_pos small]
  rfl

/-- Only a finite number has a whole part, so its count was small enough. -/
theorem eq_finite_of_truncate?_ofUnits {negative : Bool} {units : Nat} {n : Int}
    (whole : (ofUnits negative units).truncate? = some n) :
    ofUnits negative units = .finite negative units ∧ units < overflowUnits := by
  unfold ofUnits at whole ⊢
  by_cases small : units < overflowUnits
  · rw [if_pos small]
    exact ⟨rfl, small⟩
  · rw [if_neg small] at whole
    cases whole

/-- A finite quotient is a rounded count that is small enough. -/
theorem exists_roundUnits_of_truncate? {x y : Binary64} {n : Int}
    (whole : (x.div y).truncate? = some n) :
    ∃ s num den, x.div y = .finite s (roundUnits num den) ∧
      roundUnits num den < overflowUnits := by
  cases x with
  | nan => cases whole
  | infinite s => cases y <;> cases whole
  | finite s u =>
    cases y with
    | nan => cases whole
    | infinite t =>
      have zero : roundUnits 0 1 = 0 := roundUnits_eq_self (Nat.dvd_zero _)
      refine ⟨s ^^ t, 0, 1, ?_⟩
      rw [zero]
      exact ⟨rfl, overflowUnits_pos⟩
    | finite t v =>
      change Binary64.truncate? (if v = 0 then _ else ofRatio (s ^^ t) u v) = _ at whole
      change ∃ _ _ _, (if v = 0 then _ else ofRatio (s ^^ t) u v) = _ ∧ _
      by_cases zero : v = 0
      · rw [if_pos zero] at whole
        split at whole <;> cases whole
      · rw [if_neg zero] at whole ⊢
        exact ⟨_, _, _, eq_finite_of_truncate?_ofUnits whole⟩

/-- The whole part of a quotient is within the range of doubles. -/
theorem isFinite_ofInt_of_truncate? {x y : Binary64} {n : Int}
    (whole : (x.div y).truncate? = some n) : (ofInt n).isFinite := by
  obtain ⟨s, num, den, value, small⟩ := exists_roundUnits_of_truncate? whole
  rw [value] at whole
  have part : n = signed s (roundUnits num den / one) := (Option.some.inj whole).symm
  unfold ofInt ofRatio
  rw [part, natAbs_signed]
  exact isFinite_ofUnits (roundUnits_whole_lt small)

end GotoBasic.Binary64
