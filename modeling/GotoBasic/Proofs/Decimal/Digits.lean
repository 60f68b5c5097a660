import GotoBasic.Proofs.Token.Literal
import GotoBasic.Value.Apply

/-!
# Digits of integers

Two limits go by numbers of digits: one for texts that are read, with the zeros in front, and one
for integers that are written, without a sign.  Written digits are the digits read, without the
zeros in front (`Decimal.toDigits_ofDigitChars`), so what is short enough to be read is short enough
to be written (`Decimal.isWritable_ofDigitChars`).
-/

namespace GotoBasic

namespace Decimal

/-! ## How many digits an integer has -/

/-- The number of digits of an integer.  The sign does not count. -/
def width (n : Int) : Nat := (Nat.toDigits 10 n.natAbs).length

theorem isWritable_iff (n : Int) : isWritable n ↔ width n ≤ digitLimit := by
  have limit (k : Nat) (positive : 0 < k) : n.natAbs < Nat.pow 10 k ↔ width n ≤ k :=
    (Nat.length_toDigits_le_iff (by decide) positive).symm
  unfold isWritable
  rw [decide_eq_true_iff]
  exact limit digitLimit (by decide)

end Decimal

theorem Value.display_int (n : Int) :
    Value.display (.int n) =
      if Decimal.isWritable n then .ok (String.ofList (Decimal.digits n))
      else .error (.tooLargeToDisplay .int) := by
  unfold display display? Decimal.text?
  dsimp only
  cases Decimal.isWritable n with
  | true => rfl
  | false => rfl

/-- Only integers with too many digits have no display text. -/
theorem Value.display_int_eq_error_iff (n : Int) :
    (∃ c, Value.display (.int n) = .error c) ↔ Decimal.digitLimit < Decimal.width n := by
  rw [display_int, ← Nat.not_le, ← Decimal.isWritable_iff]
  split
  next writable =>
    constructor
    · rintro ⟨c, ⟨⟩⟩
    · intro long
      exact absurd writable long
  next long => exact ⟨fun _ => long, fun _ => ⟨_, rfl⟩⟩

namespace Decimal

/-! ## Reading digits and writing them again -/

/-- Digits without the zeros in front that change nothing; one zero stays if there is nothing
else. -/
def trimZeros (ds : List Char) : List Char :=
  match ds.dropWhile (· == '0') with
  | [] => ['0']
  | d :: ds => d :: ds

theorem exists_digitChar {c : Char} (digit : isDigit c) :
    ∃ d < 10, c.toNat - '0'.toNat = d ∧ d.digitChar = c := by
  obtain ⟨low, high⟩ := isDigit_iff.1 digit
  have zero : '0'.toNat = 48 := rfl
  have small : c.toNat - '0'.toNat < 10 := by omega
  refine ⟨c.toNat - '0'.toNat, small, rfl, ?_⟩
  apply Char.toNat_inj.1
  rw [Nat.toNat_digitChar_of_lt_ten small]
  omega

/-- Digits are appended to the digits of a number that is not zero. -/
theorem toDigits_ofDigitChars_of_pos {ds : List Char} (digits : ∀ c ∈ ds, isDigit c) {init : Nat}
    (pos : 0 < init) :
    Nat.toDigits 10 (Nat.ofDigitChars 10 ds init) = Nat.toDigits 10 init ++ ds := by
  induction ds generalizing init with
  | nil =>
    rw [Nat.ofDigitChars_nil, List.append_nil]
  | cons c ds ih =>
    rcases List.forall_mem_cons.1 digits with ⟨digit, more⟩
    rcases exists_digitChar digit with ⟨d, small, value, written⟩
    rw [Nat.ofDigitChars_cons, value]
    calc Nat.toDigits 10 (Nat.ofDigitChars 10 ds (10 * init + d))
        = Nat.toDigits 10 (10 * init + d) ++ ds := ih more (by omega)
      _ = (Nat.toDigits 10 init ++ Nat.toDigits 10 d) ++ ds := by
          rw [Nat.toDigits_append_toDigits (by decide) pos small]
      _ = Nat.toDigits 10 init ++ c :: ds := by
          rw [Nat.toDigits_of_lt_base small, written, List.append_assoc, List.singleton_append]

/-- The digits of the number that digits denote are these digits without zeros in front. -/
theorem toDigits_ofDigitChars {ds : List Char} (digits : ∀ c ∈ ds, isDigit c) :
    Nat.toDigits 10 (Nat.ofDigitChars 10 ds 0) = trimZeros ds := by
  induction ds with
  | nil => rfl
  | cons c ds ih =>
    rcases List.forall_mem_cons.1 digits with ⟨digit, more⟩
    by_cases zero : c = '0'
    · rw [zero]
      exact ih more
    · rcases exists_digitChar digit with ⟨d, small, value, written⟩
      have pos : 0 < d := by
        apply Nat.pos_of_ne_zero
        rintro rfl
        exact zero written.symm
      have kept : trimZeros (c :: ds) = c :: ds := by
        simp [trimZeros, zero]
      rw [Nat.ofDigitChars_cons, value, Nat.mul_zero, Nat.zero_add,
        toDigits_ofDigitChars_of_pos more pos, Nat.toDigits_of_lt_base small, written, kept,
        List.singleton_append]

theorem isWritable_ofDigitChars {ds : List Char} (digits : ∀ c ∈ ds, isDigit c)
    (short : ds.length ≤ digitLimit) : isWritable (Nat.ofDigitChars 10 ds 0 : Nat) := by
  have below := ofDigitChars_lt digits 0
  rw [Nat.zero_add, Nat.mul_one] at below
  have limit (k : Nat) (short : ds.length ≤ k) : Nat.ofDigitChars 10 ds 0 < Nat.pow 10 k :=
    Nat.lt_of_lt_of_le below (Nat.pow_le_pow_right (by decide) short)
  unfold isWritable
  rw [Int.natAbs_natCast, decide_eq_true_iff]
  exact limit digitLimit short

/-- What digits denote is displayed without zeros in front. -/
theorem display_ofDigitChars {ds : List Char} (digits : ∀ c ∈ ds, isDigit c)
    (short : ds.length ≤ digitLimit) :
    Value.display (.int (Nat.ofDigitChars 10 ds 0 : Nat)) =
      .ok (String.ofList (trimZeros ds)) := by
  rw [Value.display_int, if_pos (isWritable_ofDigitChars digits short),
    digits_eq_toDigits (Int.natCast_nonneg _), Int.natAbs_natCast, toDigits_ofDigitChars digits]

end Decimal

end GotoBasic
