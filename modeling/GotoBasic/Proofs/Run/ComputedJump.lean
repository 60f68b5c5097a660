import GotoBasic.Load
import GotoBasic.Proofs.Decimal.Digits
import GotoBasic.Proofs.Run.Action
import GotoBasic.Proofs.Text.Strip

/-!
# Labels that texts name

A string that is the target of a jump names a label without the blanks around it.  It names a number
if a numeral is left (`Label.ofValue?_string_eq_num_iff`), and a name if anything else is, unless
the numeral is too long to be read (`Label.ofValue?_string_eq_name_iff`).  The display text of an
integer is a numeral that denotes it (`Decimal.numeral_digits`), so a jump cannot tell an integer
from its text, whatever blanks stand around the text (`computed_jump_through_text`).
-/

namespace GotoBasic

/-! ## Numerals -/

namespace Decimal

/-- Digits that are not too many to be read. -/
structure Readable (ds : List Char) : Prop where
  nonempty : ds ≠ []
  digits : ∀ c ∈ ds, isDigit c
  short : ds.length ≤ digitLimit

/-- The text is the numeral of an integer: digits, which may have a minus sign before them. -/
inductive Numeral : List Char → Int → Prop
  | unsigned {ds : List Char} (readable : Readable ds) :
    Numeral ds (Nat.ofDigitChars 10 ds 0 : Nat)
  | negative {ds : List Char} (readable : Readable ds) :
    Numeral ('-' :: ds) (-(Nat.ofDigitChars 10 ds 0 : Nat))

variable {cs ds : List Char} {n : Int}

theorem natOfDigits?_eq_some_iff {k : Nat} :
    natOfDigits? ds = some k ↔ Readable ds ∧ Nat.ofDigitChars 10 ds 0 = k := by
  constructor
  · intro read
    by_cases form : ds ≠ [] ∧ ∀ c ∈ ds, isDigit c
    · rw [natOfDigits?_eq_of_digits form.1 form.2] at read
      split at read
      next short => exact ⟨⟨form.1, form.2, short⟩, Option.some.inj read⟩
      · cases read
    · have refused : (ds.isEmpty || !ds.all isDigit || digitLimit < ds.length) = true := by
        by_cases empty : ds = []
        · simp [empty]
        · have other : ds.all isDigit = false :=
            Bool.eq_false_iff.2 fun all => form ⟨empty, List.all_eq_true.1 all⟩
          simp [other]
      rw [natOfDigits?, if_pos refused] at read
      cases read
  · rintro ⟨readable, rfl⟩
    rw [natOfDigits?_eq_of_digits readable.nonempty readable.digits, if_pos readable.short]

/-- Text is taken for an integer if it is digits with or without a minus sign. -/
theorem isIntegerText_iff :
    isIntegerText cs ↔ ∃ ds, ds ≠ [] ∧ (∀ c ∈ ds, isDigit c) ∧ (cs = ds ∨ cs = '-' :: ds) := by
  have form (ds : List Char) :
      (!ds.isEmpty && ds.all isDigit) = true ↔ ds ≠ [] ∧ ∀ c ∈ ds, isDigit c := by
    rw [Bool.and_eq_true, Bool.not_eq_true', List.isEmpty_eq_false_iff, List.all_eq_true]
  unfold isIntegerText
  split
  next ds =>
    rw [form]
    constructor
    · rintro ⟨nonempty, digits⟩
      exact ⟨ds, nonempty, digits, .inr rfl⟩
    · rintro ⟨ds', nonempty, digits, rfl | same⟩
      · exact absurd (digits '-' List.mem_cons_self) (by decide)
      · cases same
        exact ⟨nonempty, digits⟩
  next other =>
    rw [form]
    constructor
    · rintro ⟨nonempty, digits⟩
      exact ⟨cs, nonempty, digits, .inl rfl⟩
    · rintro ⟨ds', nonempty, digits, rfl | same⟩
      · exact ⟨nonempty, digits⟩
      · exact absurd same (other ds')

theorem intOfText?_negative (ds : List Char) :
    intOfText? ('-' :: ds) = (natOfDigits? ds).map fun n : Nat => -(n : Int) := by
  rw [intOfText?]
  cases natOfDigits? ds <;> rfl

theorem numeral_iff : Numeral cs n ↔ isIntegerText cs ∧ intOfText? cs = some n := by
  constructor
  · rintro (@⟨cs, readable⟩ | @⟨ds, readable⟩)
    · refine ⟨isIntegerText_iff.2 ⟨cs, readable.nonempty, readable.digits, .inl rfl⟩, ?_⟩
      rw [intOfText?_eq_of_digits readable.nonempty readable.digits,
        natOfDigits?_eq_some_iff.2 ⟨readable, rfl⟩]
      rfl
    · refine ⟨isIntegerText_iff.2 ⟨ds, readable.nonempty, readable.digits, .inr rfl⟩, ?_⟩
      rw [intOfText?_negative, natOfDigits?_eq_some_iff.2 ⟨readable, rfl⟩]
      rfl
  · rintro ⟨form, read⟩
    rcases isIntegerText_iff.1 form with ⟨ds, nonempty, digits, rfl | rfl⟩
    · rw [intOfText?_eq_of_digits nonempty digits] at read
      rcases Option.map_eq_some_iff.1 read with ⟨k, value, rfl⟩
      rcases natOfDigits?_eq_some_iff.1 value with ⟨readable, rfl⟩
      exact .unsigned readable
    · rw [intOfText?_negative] at read
      rcases Option.map_eq_some_iff.1 read with ⟨k, value, rfl⟩
      rcases natOfDigits?_eq_some_iff.1 value with ⟨readable, rfl⟩
      exact .negative readable

/-- The digits that an integer is written with are its numeral, if they are not too many. -/
theorem numeral_digits (short : width n ≤ digitLimit) : Numeral (digits n) n := by
  have readable : Readable (Nat.toDigits 10 n.natAbs) :=
    ⟨Nat.toDigits_ne_nil, isDigit_of_mem_toDigits, short⟩
  have value : Nat.ofDigitChars 10 (Nat.toDigits 10 n.natAbs) 0 = n.natAbs :=
    Nat.ofDigitChars_ten_toDigits
  by_cases negative : n < 0
  · have numeral := Numeral.negative readable
    rw [value, Int.ofNat_natAbs_of_nonpos (Int.le_of_lt negative), Int.neg_neg] at numeral
    rw [digits, if_pos negative]
    exact numeral
  · have numeral := Numeral.unsigned readable
    rw [value, Int.natAbs_of_nonneg (Int.not_lt.1 negative)] at numeral
    rw [digits, if_neg negative]
    exact numeral

/-- Digits are not blank. -/
theorem isBlank_of_isDigit {c : Char} (digit : isDigit c) : Text.isBlank c = false := by
  rw [isDigit_iff] at digit
  exact Text.isBlank_of_ascii (by omega) (by omega)

theorem Numeral.trimmed (numeral : Numeral cs n) : Text.Trimmed cs := by
  refine Text.trimmed_of_forall fun c mem => ?_
  cases numeral with
  | unsigned readable => exact isBlank_of_isDigit (readable.digits c mem)
  | negative readable =>
    rcases List.mem_cons.1 mem with rfl | mem
    · decide
    · exact isBlank_of_isDigit (readable.digits c mem)

end Decimal

/-! ## Words -/

theorem Lexer.isBlank_of_isLetter {c : Char} (letter : isLetter c) : Text.isBlank c = false := by
  rw [isLetter_iff] at letter
  exact Text.isBlank_of_ascii (by omega) (by omega)

theorem Lexer.isBlank_of_isWordChar {c : Char} (inside : isWordChar c) :
    Text.isBlank c = false := by
  simp only [isWordChar, Bool.or_eq_true, beq_iff_eq] at inside
  rcases inside with (letter | digit) | rfl
  · exact isBlank_of_isLetter letter
  · exact Decimal.isBlank_of_isDigit digit
  · decide

/-- A word that starts with a letter is no numeral. -/
theorem Lexer.isIntegerText_word {c : Char} {cs : List Char} (letter : isLetter c) :
    Decimal.isIntegerText (c :: cs) = false := by
  refine Bool.eq_false_iff.2 fun form => ?_
  rcases Decimal.isIntegerText_iff.1 form with ⟨ds, nonempty, digits, rfl | same⟩
  · have digit := digits c List.mem_cons_self
    rw [isDigit_eq_false_of_isLetter letter] at digit
    cases digit
  · cases same
    exact absurd letter (by decide)

/-! ## Labels -/

namespace Label

variable {s : String}

theorem ofValue?_string_eq_num_iff {n : Int} :
    ofValue? (.string s) = some (.num n) ↔ Decimal.Numeral (Text.strip s.toList) n := by
  rw [Decimal.numeral_iff]
  unfold ofValue?
  dsimp only
  split
  next form =>
    rw [Option.map_eq_some_iff]
    constructor
    · rintro ⟨m, read, same⟩
      cases same
      exact ⟨form, read⟩
    · rintro ⟨-, read⟩
      exact ⟨n, read, rfl⟩
  next other =>
    constructor
    · rintro ⟨⟩
    · rintro ⟨form, -⟩
      exact absurd form other

theorem ofValue?_string_eq_name_iff {l : String} :
    ofValue? (.string s) = some (.name l) ↔
      Text.strip s.toList = l.toList ∧ Decimal.isIntegerText l.toList = false := by
  unfold ofValue?
  dsimp only
  split
  next form =>
    constructor
    · intro read
      rcases Option.map_eq_some_iff.1 read with ⟨m, -, same⟩
      cases same
    · rintro ⟨stripped, other⟩
      rw [stripped, other] at form
      cases form
  next other =>
    constructor
    · rintro ⟨⟩
      rw [String.toList_ofList]
      exact ⟨rfl, Bool.eq_false_iff.2 other⟩
    · rintro ⟨stripped, -⟩
      rw [stripped, String.ofList_toList]

/-- Digits of other scripts and plus signs make names. -/
example : ofValue? (.string " ٣ ") = some (.name "٣") ∧
    ofValue? (.string "+3") = some (.name "+3") := by decide +kernel

variable {before after : String} (blank : ∀ c ∈ before.toList, Text.isBlank c)
  (blank' : ∀ c ∈ after.toList, Text.isBlank c)

include blank blank'

/-- The text of an integer names its number, with any blanks around it. -/
theorem ofValue?_padded {n : Int} {text : String} (shown : Value.display (.int n) = .ok text) :
    ofValue? (.string (before ++ text ++ after)) = some (.num n) := by
  rw [Value.display_int] at shown
  split at shown
  next writable =>
    cases shown
    have numeral := Decimal.numeral_digits ((Decimal.isWritable_iff n).1 writable)
    rw [ofValue?_string_eq_num_iff, String.toList_append, String.toList_append,
      String.toList_ofList, Text.strip_append blank blank' numeral.trimmed]
    exact numeral
  · cases shown

theorem ofValue?_word {c : Char} {cs : List Char} (letter : Lexer.isLetter c)
    (inside : ∀ d ∈ cs, Lexer.isWordChar d) :
    ofValue? (.string (before ++ String.ofList (c :: cs) ++ after)) =
      some (.name (String.ofList (c :: cs))) := by
  have trimmed : Text.Trimmed (c :: cs) :=
    Text.trimmed_of_forall (List.forall_mem_cons.2 ⟨Lexer.isBlank_of_isLetter letter,
      fun d mem => Lexer.isBlank_of_isWordChar (inside d mem)⟩)
  rw [ofValue?_string_eq_name_iff, String.toList_append, String.toList_append,
    String.toList_ofList, Text.strip_append blank blank' trimmed]
  exact ⟨rfl, Lexer.isIntegerText_word letter⟩

end Label

/-! ## Jumps -/

/-- With any blanks around it, the text of an integer names the number that the integer names, and a
word names itself.  A string names a number only if it is a numeral between blanks.  So a jump
through a variable goes the same way, or fails in the same way, whether the variable holds an
integer or its text. -/
theorem computed_jump_through_text {before after : String}
    (blank : ∀ c ∈ before.toList, Text.isBlank c) (blank' : ∀ c ∈ after.toList, Text.isBlank c) :
    (∀ n, Decimal.width n ≤ Decimal.digitLimit → ∃ text, Value.display (.int n) = .ok text ∧
        Label.ofValue? (.string (before ++ text ++ after)) = some (.num n) ∧
          Label.ofValue? (.int n) = some (.num n)) ∧
      (∀ c cs, Lexer.isLetter c → (∀ d ∈ cs, Lexer.isWordChar d) →
        Label.ofValue? (.string (before ++ String.ofList (c :: cs) ++ after)) =
          some (.name (String.ofList (c :: cs)))) ∧
      (∀ s n, Label.ofValue? (.string s) = some (.num n) ↔
        ∃ front cs back, s.toList = front ++ cs ++ back ∧ (∀ c ∈ front, Text.isBlank c) ∧
          (∀ c ∈ back, Text.isBlank c) ∧ Decimal.Numeral cs n) ∧
      ∀ (p : Program) (env : Env) (target : Label) (n : Int) (text : String),
        p.position? target = none → Value.display (.int n) = .ok text →
          p.resolve (env.set target.text (.string (before ++ text ++ after))) (some target) =
              p.resolve (env.set target.text (.int n)) (some target) ∧
            p.resolve (env.set target.text (.int n)) (some target) =
              if (p.position? (.num n)).isSome then .ok (.num n)
              else .error (.notALabel target.text) := by
  refine ⟨fun n short => ?_, fun c cs letter inside => ?_, fun s n => ?_, ?_⟩
  · have shown : Value.display (.int n) = .ok (String.ofList (Decimal.digits n)) := by
      rw [Value.display_int, if_pos ((Decimal.isWritable_iff n).2 short)]
    exact ⟨_, shown, Label.ofValue?_padded blank blank' shown, rfl⟩
  · exact Label.ofValue?_word blank blank' letter inside
  · rw [Label.ofValue?_string_eq_num_iff]
    constructor
    · intro numeral
      rcases Text.strip_eq_iff.1 (rfl : Text.strip s.toList = _) with
        ⟨-, front, back, shape, blanks, blanks'⟩
      exact ⟨front, _, back, shape, blanks, blanks', numeral⟩
    · rintro ⟨front, cs, back, shape, blanks, blanks', numeral⟩
      rw [Text.strip_eq_iff.2 ⟨numeral.trimmed, front, back, shape, blanks, blanks'⟩]
      exact numeral
  · intro p env target n text undeclared shown
    have bound (v : Value) : (env.set target.text v).get? target.text = some v := by
      rw [Env.get?_set, if_pos rfl]
    have through {v : Value} (names : Label.ofValue? v = some (.num n)) :
        p.resolve (env.set target.text v) (some target) =
          if (p.position? (.num n)).isSome then .ok (.num n)
          else .error (.notALabel target.text) := by
      rw [Program.resolve_of_undeclared undeclared (bound v), names, Option.bind_some,
        Program.declared?]
      by_cases has : (p.position? (.num n)).isSome
      · rw [if_pos has, if_pos has]
      · rw [if_neg has, if_neg has]
    have number := through (v := .int n) rfl
    exact ⟨(through (Label.ofValue?_padded blank blank' shown)).trans number.symm, number⟩

/-- A program that ends through a variable, which may hold minus one or its text between an
ideographic space and a line feed. -/
theorem computed_jump_through_padded_text :
    ∃ p : Program, load "10 GOTO t" = .ok p ∧ p.position? (.name "t") = none ∧
      Value.display (.int (-1)) = .ok "-1" ∧
      Label.ofValue? (.string "\u3000-1\n") = some (.num (-1)) ∧
      p.resolve [("t", .string "\u3000-1\n")] (some (.name "t")) = .ok (.num (-1)) ∧
      p.resolve [("t", .int (-1))] (some (.name "t")) = .ok (.num (-1)) := by
  rcases exists_load
    (P := fun p => p.position? (.name "t") = none ∧ (p.position? (.num (-1))).isSome)
    "10 GOTO t" (by decide +kernel) with ⟨p, loads, undeclared, has⟩
  have blanks (s : String) (all : s.toList.all Text.isBlank) : ∀ c ∈ s.toList, Text.isBlank c :=
    List.all_eq_true.1 all
  have shown : Value.display (.int (-1)) = .ok "-1" := by decide +kernel
  rcases computed_jump_through_text (blanks "\u3000" (by decide)) (blanks "\n" (by decide)) with
    ⟨numbers, -, -, jumps⟩
  rcases numbers (-1) (by decide) with ⟨text, shown', names, -⟩
  cases shown.symm.trans shown'
  rcases jumps p [] (.name "t") (-1) "-1" undeclared shown with ⟨same, goes⟩
  rw [if_pos has] at goes
  exact ⟨p, loads, undeclared, shown, names, same.trans goes, goes⟩

end GotoBasic
