/-!
# Double precision numbers

Every finite double is a whole multiple of the least positive one, `2 ^ (-1074)`.  A finite
number is therefore held as a sign and a count of such units, all arithmetic is exact arithmetic
of natural numbers followed by one rounding, and comparison is comparison of counts.

* `roundUnits` rounds a quotient of counts to a count that a double can hold, the nearest one,
  and of two equally near ones the one with an even mantissa.
* `Binary64.ofRatio` rounds a fraction; it looks at the value of the fraction only, never at the
  sizes of its numerator and denominator.
-/

namespace GotoBasic

/-- A double precision number.  A zero has a sign; there is one number that is not a number. -/
inductive Binary64 where
  /-- Plus or minus `units * 2 ^ (-1074)`. -/
  | finite (negative : Bool) (units : Nat)
  | infinite (negative : Bool)
  | nan
  deriving DecidableEq, Repr, Inhabited

namespace Binary64

/-- The number one, counted in units. -/
def one : Nat := Nat.pow 2 1074

/-- The first count that is too large for a double: the number `2 ^ 1024`. -/
def overflowUnits : Nat := Nat.pow 2 2098

/-- The whole number nearest to `num / den`; a tie goes to the even one. -/
def roundHalfEven (num den : Nat) : Nat :=
  let q := num / den
  let r := num % den
  if 2 * r < den ∨ (2 * r = den ∧ q % 2 = 0) then q else q + 1

/-- The nearest count to `num / den` with at most 53 significant bits. -/
def roundUnits (num den : Nat) : Nat :=
  let spacing := Nat.pow 2 ((num / den).log2 - 52)
  roundHalfEven num (den * spacing) * spacing

/-- The number with a given sign and a given count, infinite if the count is too large. -/
def ofUnits (negative : Bool) (units : Nat) : Binary64 :=
  if units < overflowUnits then .finite negative units else .infinite negative

/-- The double nearest to plus or minus `num / den`. -/
def ofRatio (negative : Bool) (num den : Nat) : Binary64 :=
  ofUnits negative (roundUnits (num * one) den)

/-- The double nearest to an integer. -/
def ofInt (n : Int) : Binary64 := ofRatio (n < 0) n.natAbs 1

def isFinite : Binary64 → Bool
  | .finite _ _ => true
  | _ => false

/-- Both zeros are zero. -/
def isZero : Binary64 → Bool
  | .finite _ 0 => true
  | _ => false

/-- A count with its sign. -/
def signed (negative : Bool) (units : Nat) : Int := if negative then -(units : Int) else units

/-! ## Arithmetic -/

def neg : Binary64 → Binary64
  | .finite s u => .finite (!s) u
  | .infinite s => .infinite (!s)
  | .nan => .nan

/-- The sum.  A sum that is exactly zero is negative only if both terms are. -/
def add : Binary64 → Binary64 → Binary64
  | .finite s u, .finite t v =>
    let z := signed s u + signed t v
    if z = 0 then .finite (s && t) 0 else ofUnits (z < 0) (roundUnits z.natAbs 1)
  | .infinite s, .infinite t => if s = t then .infinite s else .nan
  | .infinite s, .finite _ _ => .infinite s
  | .finite _ _, .infinite t => .infinite t
  | .nan, _ => .nan
  | _, .nan => .nan

def sub (x y : Binary64) : Binary64 := x.add y.neg

/-- The product.  Zero times infinity is not a number. -/
def mul : Binary64 → Binary64 → Binary64
  | .finite s u, .finite t v => ofUnits (s ^^ t) (roundUnits (u * v) one)
  | .infinite s, .infinite t => .infinite (s ^^ t)
  | .infinite s, .finite t v => if v = 0 then .nan else .infinite (s ^^ t)
  | .finite s u, .infinite t => if u = 0 then .nan else .infinite (s ^^ t)
  | .nan, _ => .nan
  | _, .nan => .nan

/-- The quotient.  A nonzero number over zero is infinite, and zero over zero is not a number. -/
def div : Binary64 → Binary64 → Binary64
  | .finite s u, .finite t v =>
    if v = 0 then (if u = 0 then .nan else .infinite (s ^^ t))
    else ofRatio (s ^^ t) u v
  | .infinite _, .infinite _ => .nan
  | .infinite s, .finite t _ => .infinite (s ^^ t)
  | .finite s _, .infinite t => .finite (s ^^ t) 0
  | .nan, _ => .nan
  | _, .nan => .nan

/-- The whole part, dropping the fraction toward zero; none of what is not finite. -/
def truncate? : Binary64 → Option Int
  | .finite s u => some (signed s (u / one))
  | _ => none

/-! ## Rounding depends on the quotient only -/

theorem roundHalfEven_mul_left {k : Nat} (pos : 0 < k) (num den : Nat) :
    roundHalfEven (k * num) (k * den) = roundHalfEven num den := by
  have same (r : Nat) :
      (2 * (k * r) < k * den ↔ 2 * r < den) ∧ (2 * (k * r) = k * den ↔ 2 * r = den) := by
    rw [Nat.mul_left_comm]
    exact ⟨Nat.mul_lt_mul_left pos, Nat.mul_right_inj (Nat.ne_of_gt pos)⟩
  simp only [roundHalfEven, Nat.mul_div_mul_left _ _ pos, Nat.mul_mod_mul_left, (same _).1,
    (same _).2]

theorem roundUnits_mul_left {k : Nat} (pos : 0 < k) (num den : Nat) :
    roundUnits (k * num) (k * den) = roundUnits num den := by
  simp only [roundUnits, Nat.mul_div_mul_left _ _ pos, Nat.mul_assoc, roundHalfEven_mul_left pos]

/-- Enlarging a fraction does not change the double nearest to it. -/
theorem ofRatio_mul_left {k : Nat} (pos : 0 < k) (negative : Bool) (num den : Nat) :
    ofRatio negative (k * num) (k * den) = ofRatio negative num den := by
  simp only [ofRatio, Nat.mul_assoc, roundUnits_mul_left pos]

end Binary64

end GotoBasic
