import GotoBasic.Proofs.Binary64.Integer
import Mathlib.Algebra.Order.Field.Basic
import Mathlib.Algebra.Order.Ring.Rat
import Mathlib.Tactic.FieldSimp
import Mathlib.Tactic.Linarith
import Mathlib.Tactic.Positivity
import Mathlib.Tactic.Ring

/-!
# Correct rounding

Rounding a fraction gives the count nearest to it among all that doubles can hold, and of two
equally near ones the one whose mantissa is even (`Binary64.roundUnits_nearest`), and this tells the
count (`Binary64.Nearest.unique`).  The range of doubles is no part of this: a count that is too
large for a double is nearest among counts with any exponent.
-/

namespace GotoBasic.Binary64

/-! ## Rounding to an integer -/

/-- The integer `r` is nearest to `y`, and even if another one is as near. -/
structure NearestNat (y : ℚ) (r : Nat) : Prop where
  closest : ∀ k : Nat, |y - r| ≤ |y - k|
  even : ∀ k : Nat, k ≠ r → |y - k| = |y - r| → r % 2 = 0

/-- All other integers are at least half the way off. -/
theorem half_le_of_ne {y : ℚ} {r k : Nat} (error : |y - r| ≤ 1 / 2) (other : k ≠ r) :
    1 / 2 ≤ |y - k| := by
  have apart : (1 : ℚ) ≤ |(k : ℚ) - r| := by
    have nonzero : (k : Int) - r ≠ 0 := by omega
    have whole : (1 : Int) ≤ |(k : Int) - r| := Int.one_le_abs nonzero
    exact_mod_cast whole
  have path : |(k : ℚ) - r| ≤ |y - r| + |y - k| := by
    have sum := abs_add_le (y - r) (k - y)
    rw [abs_sub_comm (k : ℚ) y] at sum
    have whole : (y - r) + (k - y) = (k : ℚ) - r := by ring
    rw [whole] at sum
    exact sum
  linarith

theorem NearestNat.of_error {y : ℚ} {r : Nat} (error : |y - r| ≤ 1 / 2)
    (even : |y - r| = 1 / 2 → r % 2 = 0) : NearestNat y r where
  closest k := by
    by_cases same : k = r
    · rw [same]
    · exact le_trans error (half_le_of_ne error same)
  even k other tie := by
    have far := half_le_of_ne error other
    rw [tie] at far
    exact even (le_antisymm error far)

section Fraction

variable {q r den : Nat} (below : r < den)

include below

/-- A fraction of at most one half is dropped. -/
theorem NearestNat.floor (half : 2 * r ≤ den) (even : 2 * r = den → q % 2 = 0) :
    NearestNat (q + r / (den : ℚ)) q := by
  have positive : (0 : ℚ) < den := Nat.cast_pos.2 (Nat.zero_lt_of_lt below)
  have error : |(q : ℚ) + r / den - q| = r / den := by
    have nonneg : (0 : ℚ) ≤ r / den := by positivity
    rw [add_sub_cancel_left, abs_of_nonneg nonneg]
  have half' : (2 : ℚ) * r ≤ den := by exact_mod_cast half
  apply NearestNat.of_error
  · rw [error, div_le_iff₀ positive]
    linarith
  · intro tie
    rw [error, div_eq_iff (ne_of_gt positive)] at tie
    have exact : (2 : ℚ) * r = den := by linarith
    exact even (by exact_mod_cast exact)

/-- A fraction of at least one half is filled up. -/
theorem NearestNat.ceil (half : den ≤ 2 * r) (even : 2 * r = den → (q + 1) % 2 = 0) :
    NearestNat (q + r / (den : ℚ)) (q + 1) := by
  have positive : (0 : ℚ) < den := Nat.cast_pos.2 (Nat.zero_lt_of_lt below)
  have error : |(q : ℚ) + r / den - (q + 1 : Nat)| = 1 - r / den := by
    have short : (r : ℚ) / den ≤ 1 := by
      rw [div_le_one positive]
      exact_mod_cast le_of_lt below
    have gap : (q : ℚ) + r / den - (q + 1 : Nat) = -(1 - r / den) := by
      push_cast
      ring
    rw [gap, abs_neg, abs_of_nonneg (sub_nonneg.2 short)]
  have half' : (den : ℚ) ≤ 2 * r := by exact_mod_cast half
  apply NearestNat.of_error
  · rw [error, sub_le_iff_le_add, ← sub_le_iff_le_add', le_div_iff₀ positive]
    linarith
  · intro tie
    have ratio : (r : ℚ) / den = 1 / 2 := by linarith
    rw [div_eq_iff (ne_of_gt positive)] at ratio
    have exact : (2 : ℚ) * r = den := by linarith
    exact even (by exact_mod_cast exact)

end Fraction

/-- Rounding goes at most half the way to the next integer, and half the way only to an even
one. -/
theorem roundHalfEven_nearest (num : Nat) {den : Nat} (pos : 0 < den) :
    NearestNat (num / den) (roundHalfEven num den) := by
  have division : (num : ℚ) / den = (num / den : Nat) + (num % den : Nat) / (den : ℚ) := by
    have positive : (0 : ℚ) < den := Nat.cast_pos.2 pos
    have whole : (den : ℚ) * (num / den : Nat) + (num % den : Nat) = num := by
      exact_mod_cast Nat.div_add_mod num den
    rw [← whole]
    field_simp
  have below : num % den < den := Nat.mod_lt num pos
  rw [division]
  unfold roundHalfEven
  dsimp only
  split
  next low => exact .floor below (by omega) (by omega)
  next high => exact .ceil below (by omega) (by omega)

/-! ## Counts that doubles hold -/

/-- A count as doubles hold it: a mantissa of at most 53 bits, which are all used unless the spacing
of doubles is the least one. -/
structure Scaled (u m e : Nat) : Prop where
  count : u = m * 2 ^ e
  small : m < 2 ^ 53
  full : e = 0 ∨ 2 ^ 52 ≤ m

/-- The count `u` is nearest to `x` among those that doubles hold, and its mantissa is even if
another one is as near. -/
structure Nearest (x : ℚ) (u : Nat) : Prop where
  held : ∃ m e, Scaled u m e
  closest : ∀ v m e, Scaled v m e → |x - u| ≤ |x - v|
  even : ∀ v m e, Scaled v m e → v ≠ u → |x - v| = |x - u| → ∃ m e, Scaled u m e ∧ m % 2 = 0

/-- A mantissa that is one too large is even, and has half of it with the next spacing. -/
theorem exists_scaled {r e : Nat} (bits : r ≤ 2 ^ 53) (full : e = 0 ∨ 2 ^ 52 ≤ r) :
    ∃ m e', Scaled (r * 2 ^ e) m e' ∧ (r % 2 = 0 → m % 2 = 0) := by
  by_cases small : r < 2 ^ 53
  · exact ⟨r, e, ⟨rfl, small, full⟩, id⟩
  · have whole : r = 2 ^ 53 := Nat.le_antisymm bits (Nat.not_lt.1 small)
    have count : r * 2 ^ e = 2 ^ 52 * 2 ^ (e + 1) := by
      rw [whole, Nat.pow_succ 2 e]
      ring
    exact ⟨2 ^ 52, e + 1, ⟨count, by decide, .inr (Nat.le_refl _)⟩, fun _ => by decide⟩

/-- A count that is no multiple of a spacing is below the full mantissas of that spacing. -/
theorem Scaled.multiple_or_lt {v m e' : Nat} (scaled : Scaled v m e') (e : Nat) :
    (∃ k, v = k * 2 ^ e) ∨ e ≠ 0 ∧ v < 2 ^ 52 * 2 ^ e := by
  by_cases coarse : e ≤ e'
  · refine .inl ⟨m * 2 ^ (e' - e), ?_⟩
    rw [scaled.count, Nat.mul_assoc, ← Nat.pow_add, Nat.sub_add_cancel coarse]
  · have next : 2 ^ (e' + 1) ≤ 2 ^ e := Nat.pow_le_pow_right Nat.two_pos (by omega)
    refine .inr ⟨by omega, ?_⟩
    calc v = m * 2 ^ e' := scaled.count
      _ < 2 ^ 53 * 2 ^ e' := Nat.mul_lt_mul_of_pos_right scaled.small (Nat.two_pow_pos e')
      _ = 2 ^ 52 * 2 ^ (e' + 1) := by ring
      _ ≤ 2 ^ 52 * 2 ^ e := Nat.mul_le_mul_left _ next

theorem cast_two_pow_pos (e : Nat) : (0 : ℚ) < (2 ^ e : Nat) :=
  Nat.cast_pos.2 (Nat.two_pow_pos e)

theorem abs_sub_scaled (y : ℚ) (k e : Nat) :
    |y * (2 ^ e : Nat) - (k * 2 ^ e : Nat)| = |y - k| * (2 ^ e : Nat) := by
  rw [Nat.cast_mul, ← sub_mul, abs_mul, abs_of_pos (cast_two_pow_pos e)]

/-- A count below the full mantissas is farther off than the least of them. -/
theorem NearestNat.farther {y : ℚ} {r : Nat} (near : NearestNat y r)
    (full : ((2 ^ 52 : Nat) : ℚ) ≤ y) {v e : Nat} (small : v < 2 ^ 52 * 2 ^ e) :
    |y * (2 ^ e : Nat) - (r * 2 ^ e : Nat)| < |y * (2 ^ e : Nat) - v| := by
  have scale := le_of_lt (cast_two_pow_pos e)
  have above : ((2 ^ 52 * 2 ^ e : Nat) : ℚ) ≤ y * (2 ^ e : Nat) := by
    rw [Nat.cast_mul]
    exact mul_le_mul_of_nonneg_right full scale
  calc |y * (2 ^ e : Nat) - (r * 2 ^ e : Nat)|
      = |y - r| * (2 ^ e : Nat) := abs_sub_scaled y r e
    _ ≤ |y - (2 ^ 52 : Nat)| * (2 ^ e : Nat) :=
        mul_le_mul_of_nonneg_right (near.closest (2 ^ 52)) scale
    _ = |y * (2 ^ e : Nat) - (2 ^ 52 * 2 ^ e : Nat)| := (abs_sub_scaled y (2 ^ 52) e).symm
    _ = y * (2 ^ e : Nat) - (2 ^ 52 * 2 ^ e : Nat) := abs_of_nonneg (sub_nonneg.2 above)
    _ < y * (2 ^ e : Nat) - v := sub_lt_sub_left (Nat.cast_lt.2 small) _
    _ ≤ |y * (2 ^ e : Nat) - v| := le_abs_self _

/-- An integer nearest to a multiple of the spacing gives a nearest count, provided that mantissas
are full unless the spacing is the least one. -/
theorem NearestNat.nearest {y : ℚ} {r e : Nat} (near : NearestNat y r) (bits : r ≤ 2 ^ 53)
    (full : e ≠ 0 → 2 ^ 52 ≤ r ∧ ((2 ^ 52 : Nat) : ℚ) ≤ y) :
    Nearest (y * (2 ^ e : Nat)) (r * 2 ^ e) := by
  have positive : (0 : ℚ) < (2 ^ e : Nat) := cast_two_pow_pos e
  have shape : e = 0 ∨ 2 ^ 52 ≤ r := by
    by_cases fine : e = 0
    · exact .inl fine
    · exact .inr (full fine).1
  rcases exists_scaled bits shape with ⟨m, e', scaled, even⟩
  constructor
  case held => exact ⟨m, e', scaled⟩
  case closest =>
    intro v m e' other
    rcases other.multiple_or_lt e with ⟨k, rfl⟩ | ⟨coarse, small⟩
    · rw [abs_sub_scaled, abs_sub_scaled]
      exact mul_le_mul_of_nonneg_right (near.closest k) (le_of_lt positive)
    · exact le_of_lt (near.farther (full coarse).2 small)
  case even =>
    intro v m' e'' other different tie
    rcases other.multiple_or_lt e with ⟨k, rfl⟩ | ⟨coarse, small⟩
    · rw [abs_sub_scaled, abs_sub_scaled] at tie
      have different' : k ≠ r := by
        intro same
        rw [same] at different
        exact different rfl
      have parity := near.even k different' (mul_right_cancel₀ (ne_of_gt positive) tie)
      exact ⟨m, e', scaled, even parity⟩
    · exact absurd tie (ne_of_gt (near.farther (full coarse).2 small))

/-! ## There is one nearest count -/

theorem Scaled.exp_le {u m e m' e' : Nat} (scaled : Scaled u m e) (scaled' : Scaled u m' e') :
    e' ≤ e := by
  by_contra finer
  have full : 2 ^ 52 ≤ m' := by
    apply scaled'.full.resolve_left
    omega
  have large : 2 ^ 53 * 2 ^ e ≤ u :=
    calc 2 ^ 53 * 2 ^ e = 2 ^ 52 * 2 ^ (e + 1) := by ring
      _ ≤ m' * 2 ^ e' := Nat.mul_le_mul full (Nat.pow_le_pow_right Nat.two_pos (by omega))
      _ = u := scaled'.count.symm
  have small : u < 2 ^ 53 * 2 ^ e := by
    rw [scaled.count]
    exact Nat.mul_lt_mul_of_pos_right scaled.small (Nat.two_pow_pos e)
  exact absurd large (Nat.not_le.2 small)

/-- A count has one mantissa. -/
theorem Scaled.unique {u m e m' e' : Nat} (scaled : Scaled u m e) (scaled' : Scaled u m' e') :
    m = m' := by
  have same : e = e' := Nat.le_antisymm (scaled'.exp_le scaled) (scaled.exp_le scaled')
  have counts : m * 2 ^ e = m' * 2 ^ e := by
    rw [← scaled.count, scaled'.count, same]
  exact Nat.eq_of_mul_eq_mul_right (Nat.two_pow_pos e) counts

/-- The next count is one spacing away. -/
theorem Scaled.succ_le {u m e v m' e' : Nat} (scaled : Scaled u m e) (other : Scaled v m' e')
    (below : u < v) : (m + 1) * 2 ^ e ≤ v := by
  rw [scaled.count] at below
  rcases other.multiple_or_lt e with ⟨k, rfl⟩ | ⟨coarse, small⟩
  · have next : m < k := Nat.lt_of_mul_lt_mul_right below
    exact Nat.mul_le_mul_right _ next
  · have full : 2 ^ 52 ≤ m := scaled.full.resolve_left coarse
    have large : 2 ^ 52 * 2 ^ e ≤ m * 2 ^ e := Nat.mul_le_mul_right _ full
    exact absurd (Nat.lt_trans below small) (Nat.not_lt.2 large)

/-- Anything between two equally near counts is nearer. -/
theorem abs_sub_lt_of_tie {x u v w : ℚ} (tie : |x - v| = |x - u|) (left : u < w) (right : w < v) :
    |x - w| < |x - u| := by
  have middle : 2 * x = u + v := by
    rcases abs_eq_abs.1 tie with same | opposite
    · linarith
    · linarith
  have half : |x - u| = (v - u) / 2 := by
    have distance : x - u = (v - u) / 2 := by linarith
    rw [distance]
    apply abs_of_nonneg
    linarith
  rw [half, abs_lt]
  constructor <;> linarith

theorem Nearest.not_lt {x : ℚ} {u v : Nat} (near : Nearest x u) (near' : Nearest x v) :
    ¬u < v := by
  intro below
  rcases near.held with ⟨mu, eu, heldU⟩
  rcases near'.held with ⟨mv, ev, heldV⟩
  have tie : |x - v| = |x - u| :=
    le_antisymm (near'.closest u mu eu heldU) (near.closest v mv ev heldV)
  rcases near.even v mv ev heldV (Nat.ne_of_gt below) tie with ⟨m, e, scaled, even⟩
  rcases near'.even u mu eu heldU (Nat.ne_of_lt below) tie.symm with ⟨m', e', scaled', even'⟩
  -- An even mantissa is not the last one, so the next count has the next mantissa.
  have next : Scaled ((m + 1) * 2 ^ e) (m + 1) e := by
    have small := scaled.small
    have full := scaled.full
    exact ⟨rfl, by omega, by omega⟩
  rcases Nat.eq_or_lt_of_le (scaled.succ_le scaled' below) with reached | beyond
  · rw [reached] at next
    have odd : m + 1 = m' := next.unique scaled'
    omega
  · have inside : u < (m + 1) * 2 ^ e := by
      rw [scaled.count]
      exact Nat.mul_lt_mul_of_pos_right (Nat.lt_succ_self m) (Nat.two_pow_pos e)
    have nearer : |x - ((m + 1) * 2 ^ e : Nat)| < |x - u| :=
      abs_sub_lt_of_tie tie (Nat.cast_lt.2 inside) (Nat.cast_lt.2 beyond)
    exact absurd (near.closest _ _ _ next) (not_le_of_gt nearer)

/-- No two counts are nearest, since of two neighbours one has an odd mantissa. -/
theorem Nearest.unique {x : ℚ} {u v : Nat} (near : Nearest x u) (near' : Nearest x v) : u = v :=
  Nat.le_antisymm (Nat.not_lt.1 (near'.not_lt near)) (Nat.not_lt.1 (near.not_lt near'))

/-! ## Rounding to a count -/

variable {num den : Nat}

/-- Where the spacing is not the least one, the quotient fills the mantissa. -/
theorem full_of_spacingExp (coarse : spacingExp num den ≠ 0) :
    2 ^ 52 ≤ num / (den * 2 ^ spacingExp num den) := by
  have log : (num / den).log2 = 52 + spacingExp num den := by
    unfold spacingExp at coarse ⊢
    omega
  have nonzero : num / den ≠ 0 := by
    intro zero
    rw [zero, Nat.log2_zero] at log
    omega
  rw [← Nat.div_div_eq_div_mul, Nat.le_div_iff_mul_le (Nat.two_pow_pos _), ← Nat.pow_add, ← log]
  exact Nat.log2_self_le nonzero

theorem roundHalfEven_spacing_le (num den : Nat) :
    roundHalfEven num (den * 2 ^ spacingExp num den) ≤ 2 ^ 53 := by
  rcases exists_roundUnits_eq num den with ⟨r, bits, rounded⟩
  have same : roundHalfEven num (den * 2 ^ spacingExp num den) = r :=
    Nat.eq_of_mul_eq_mul_right (Nat.two_pow_pos _) rounded
  rw [same]
  exact bits

/-- Rounding a fraction gives the count nearest to it. -/
theorem roundUnits_nearest (num : Nat) (pos : 0 < den) :
    Nearest (num / den) (roundUnits num den) := by
  let e := spacingExp num den
  have scale : (0 : ℚ) < (2 ^ e : Nat) := cast_two_pow_pos e
  have pos' : 0 < den * 2 ^ e := Nat.mul_pos pos (Nat.two_pow_pos e)
  have near := roundHalfEven_nearest num pos'
  have full (coarse : e ≠ 0) : 2 ^ 52 ≤ roundHalfEven num (den * 2 ^ e) ∧
      ((2 ^ 52 : Nat) : ℚ) ≤ num / (den * 2 ^ e : Nat) := by
    have quotient : 2 ^ 52 ≤ num / (den * 2 ^ e) := full_of_spacingExp coarse
    refine ⟨le_trans quotient (le_roundHalfEven _ _), ?_⟩
    rw [le_div_iff₀ (Nat.cast_pos.2 pos')]
    exact_mod_cast (Nat.le_div_iff_mul_le pos').1 quotient
  have value : (num : ℚ) / (den * 2 ^ e : Nat) * (2 ^ e : Nat) = num / den := by
    rw [Nat.cast_mul]
    exact div_mul_eq_mul_div _ _ _ |>.trans (mul_div_mul_right _ _ (ne_of_gt scale))
  have nearest := near.nearest (roundHalfEven_spacing_le num den) full
  rw [value] at nearest
  exact nearest

end GotoBasic.Binary64
