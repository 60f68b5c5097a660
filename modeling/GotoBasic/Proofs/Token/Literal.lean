import GotoBasic.Binary64.Decimal
import GotoBasic.Proofs.Token.WellFormed

/-!
# What numeric tokens denote

The readers of numbers take any spelling.  On the spellings that scanning yields they come down
to plain positional notation: an integer token denotes the number of its digits unless there are
too many of them (`Decimal.integer?_eq_of_digits`), and a float token always denotes the double
nearest to its decimal (`Binary64.ofText?_eq_of_digits`).  The digits that an integer is written
with denote it (`Decimal.integer?_digits`).
-/

namespace GotoBasic

open Decimal (isDigit)

theorem Decimal.isPlain_of_isDigit {c : Char} (digit : isDigit c) : isPlain c := by
  obtain ⟨low, high⟩ := isDigit_iff.1 digit
  have notSpace : c ≠ ' ' := by rintro rfl; exact absurd low (by decide)
  have notLine : c ≠ '_' := by rintro rfl; exact absurd high (by decide)
  simp only [isPlain, isPad, Bool.and_eq_true, decide_eq_true_eq, Bool.not_eq_true',
    Bool.or_eq_false_iff, beq_eq_false_iff_ne, bne_iff_ne, ne_eq, Bool.and_eq_false_iff,
    decide_eq_false_iff_not]
  exact ⟨⟨by omega, notSpace, .inr (by omega)⟩, notLine⟩

theorem Decimal.ne_of_isDigit {c d : Char} (digit : isDigit c) (other : isDigit d = false) :
    c ≠ d := by
  rintro rfl
  rw [digit] at other
  cases other

/-- Digits denote less than the power of ten that has one digit more. -/
theorem Decimal.ofDigitChars_lt {cs : List Char} (digits : ∀ c ∈ cs, isDigit c) (init : Nat) :
    Nat.ofDigitChars 10 cs init < Nat.pow 10 cs.length * (init + 1) := by
  induction cs generalizing init with
  | nil => simp
  | cons c cs ih =>
    have low : c.toNat - '0'.toNat + 1 ≤ 10 := by
      have high := (isDigit_iff.1 (digits c List.mem_cons_self)).2
      have zero : '0'.toNat = 48 := rfl
      omega
    rw [Nat.ofDigitChars_cons]
    calc Nat.ofDigitChars 10 cs (10 * init + (c.toNat - '0'.toNat))
        < Nat.pow 10 cs.length * (10 * init + (c.toNat - '0'.toNat) + 1) :=
          ih (fun d mem => digits d (List.mem_cons_of_mem c mem)) _
      _ ≤ Nat.pow 10 cs.length * (10 * (init + 1)) := Nat.mul_le_mul_left _ (by omega)
      _ = Nat.pow 10 (c :: cs).length * (init + 1) := (Nat.mul_assoc _ _ _).symm

theorem Decimal.natOfDigits?_eq_of_digits {cs : List Char} (nonempty : cs ≠ [])
    (digits : ∀ c ∈ cs, isDigit c) :
    natOfDigits? cs = if cs.length ≤ digitLimit then some (Nat.ofDigitChars 10 cs 0) else none := by
  have all : cs.all isDigit = true := List.all_eq_true.2 digits
  have some : cs.isEmpty = false := by simpa using nonempty
  by_cases short : cs.length ≤ digitLimit
  · simp [natOfDigits?, all, some, short, Nat.not_lt.2 short]
  · simp [natOfDigits?, all, some, short, Nat.lt_of_not_le short]

/-- Text that starts with a digit has no sign. -/
theorem Decimal.intOfText?_eq_of_digits {cs : List Char} (nonempty : cs ≠ [])
    (digits : ∀ c ∈ cs, isDigit c) :
    intOfText? cs = (natOfDigits? cs).map fun n : Nat => (n : Int) := by
  cases cs with
  | nil => exact absurd rfl nonempty
  | cons c cs =>
    have digit := digits c List.mem_cons_self
    have notMinus := ne_of_isDigit digit (d := '-') (by decide)
    have notPlus := ne_of_isDigit digit (d := '+') (by decide)
    have unsigned : intOfText? (c :: cs) =
        (natOfDigits? (c :: cs)).bind fun n => some (n : Int) := by
      simp [intOfText?, notMinus, notPlus]
    rw [unsigned]
    cases natOfDigits? (c :: cs) <;> rfl

/-- A nonempty text of digits denotes their number, provided that it is not too long. -/
theorem Decimal.integer?_eq_of_digits {cs : List Char} (nonempty : cs ≠ [])
    (digits : ∀ c ∈ cs, isDigit c) :
    integer? cs =
      if cs.length ≤ digitLimit then some ((Nat.ofDigitChars 10 cs 0 : Nat) : Int) else none := by
  have plain : plain? cs = some cs :=
    plain?_eq_self fun c mem => isPlain_of_isDigit (digits c mem)
  rw [integer?, plain, Option.bind_some, intOfText?_eq_of_digits nonempty digits,
    natOfDigits?_eq_of_digits nonempty digits]
  split <;> rfl

/-- The digits of a number that is not negative. -/
theorem Decimal.digits_eq_toDigits {n : Int} (nonneg : 0 ≤ n) :
    digits n = Nat.toDigits 10 n.natAbs := if_neg (Int.not_lt.2 nonneg)

theorem Decimal.isDigit_of_mem_toDigits {k : Nat} : ∀ c ∈ Nat.toDigits 10 k, isDigit c := by
  intro c mem
  have digit := Nat.isDigit_of_mem_toDigits (by decide) (by decide) mem
  simpa [Char.isDigit, isDigit, Char.le_def] using digit

theorem Decimal.isDigit_of_mem_digits {n : Int} (nonneg : 0 ≤ n) : ∀ c ∈ digits n, isDigit c := by
  rw [digits_eq_toDigits nonneg]
  exact isDigit_of_mem_toDigits

/-- A number that can be written is read back. -/
theorem Decimal.integer?_digits {n : Int} (nonneg : 0 ≤ n) (writable : isWritable n) :
    integer? (digits n) = some n := by
  have shape := digits_eq_toDigits nonneg
  have nonempty : digits n ≠ [] := by
    rw [shape]
    exact Nat.toDigits_ne_nil
  have limit (k : Nat) (positive : 0 < k) (small : n.natAbs < Nat.pow 10 k) :
      (digits n).length ≤ k := by
    rw [shape]
    exact (Nat.length_toDigits_le_iff (by decide) positive).2 small
  have short : (digits n).length ≤ digitLimit := by
    refine limit digitLimit (by decide) ?_
    simpa only [isWritable, decide_eq_true_eq] using writable
  rw [integer?_eq_of_digits nonempty (isDigit_of_mem_digits nonneg), if_pos short, shape,
    Nat.ofDigitChars_ten_toDigits, Int.natAbs_of_nonneg nonneg]

namespace Binary64

/-- The double nearest to the decimal with the given digits before and behind its point. -/
def ofParts (whole fraction : List Char) : Binary64 :=
  ofDecimal false (Nat.ofDigitChars 10 (whole ++ fraction) 0) (-(fraction.length : Int))

/-- Every decimal with a point is read. -/
theorem ofText?_eq_of_digits {whole fraction : List Char} (nonempty : whole ≠ [])
    (digits : ∀ c ∈ whole, isDigit c) (digits' : ∀ c ∈ fraction, isDigit c) :
    ofText? (whole ++ '.' :: fraction) = some (ofParts whole fraction) := by
  have plain : Decimal.plain? (whole ++ '.' :: fraction) = some (whole ++ '.' :: fraction) := by
    apply Decimal.plain?_eq_self
    intro c mem
    rcases List.mem_append.1 mem with mem | mem
    · exact Decimal.isPlain_of_isDigit (digits c mem)
    · rcases List.mem_cons.1 mem with rfl | mem
      · decide
      · exact Decimal.isPlain_of_isDigit (digits' c mem)
  have parts : unsignedOfParts? false whole ('.' :: fraction) = some (ofParts whole fraction) := by
    have all : (fraction ++ []).takeWhile isDigit = fraction ++ [] :=
      List.takeWhile_append_of_pos digits'
    have none : (fraction ++ []).dropWhile isDigit = [] := List.dropWhile_append_of_pos digits'
    rw [List.append_nil] at all none
    simp [unsignedOfParts?, all, none, nonempty, exponentOfText?, ofParts]
  have front : (whole ++ '.' :: fraction).takeWhile isDigit = whole := by
    rw [List.takeWhile_append_of_pos digits]
    simp [isDigit]
  have back : (whole ++ '.' :: fraction).dropWhile isDigit = '.' :: fraction := by
    rw [List.dropWhile_append_of_pos digits]
    simp [isDigit]
  have number : unsignedOfText? false (whole ++ '.' :: fraction) =
      some (ofParts whole fraction) := by
    rw [unsignedOfText?, front, back, parts]
    have point : '.' ∈ (whole ++ '.' :: fraction).map Char.toLower :=
      List.mem_map.2 ⟨'.', by simp, by decide⟩
    have notWord (word : List Char) (free : '.' ∉ word) :
        (whole ++ '.' :: fraction).map Char.toLower ≠ word := by
      intro same
      rw [same] at point
      exact free point
    rw [if_neg, if_neg (notWord _ (by decide))]
    exact not_or.2 ⟨notWord _ (by decide), notWord _ (by decide)⟩
  rw [ofText?, plain, Option.bind_some]
  cases whole with
  | nil => exact absurd rfl nonempty
  | cons c cs =>
    have digit := digits c List.mem_cons_self
    have notMinus := Decimal.ne_of_isDigit digit (d := '-') (by decide)
    have notPlus := Decimal.ne_of_isDigit digit (d := '+') (by decide)
    simpa [ofPlain?, notMinus, notPlus] using number

end Binary64

end GotoBasic
