import GotoBasic.Decimal.Integer
import GotoBasic.Text.Quoted

/-!
# Texts on one line

Line ends are not printable, so a text of printable characters is on one line
(`Text.Printable.oneLine`).  Quotes make every text printable (`Text.printable_quoted`): what would
not be seen between them is written in ASCII.
-/

namespace GotoBasic.Text

/-- A text without line feeds and carriage returns. -/
def OneLine (s : String) : Prop := '\n' ∉ s.toList ∧ '\r' ∉ s.toList

/-- A text whose characters are all shown as themselves. -/
def Printable (s : String) : Prop := ∀ c ∈ s.toList, isPrintable c

instance (s : String) : Decidable (OneLine s) :=
  inferInstanceAs (Decidable (_ ∧ _))

instance (s : String) : Decidable (Printable s) :=
  List.decidableBAll (fun c => isPrintable c = true) s.toList

variable {s t : String} {cs : List Char} {c : Char}

/-- Line feeds and carriage returns are not printable. -/
theorem Printable.oneLine (printable : Printable s) : OneLine s :=
  ⟨fun feed => absurd (printable _ feed) (by decide),
    fun back => absurd (printable _ back) (by decide)⟩

/-- Messages are put together from printable pieces. -/
theorem Printable.append (front : Printable s) (back : Printable t) : Printable (s ++ t) := by
  unfold Printable
  rw [String.toList_append]
  exact List.forall_mem_append.2 ⟨front, back⟩

/-- A text between two others. -/
theorem Printable.between {front back : String} (before : Printable front) (inner : Printable s)
    (after : Printable back) : Printable (front ++ s ++ back) :=
  (before.append inner).append after

theorem printable_ofList (printable : ∀ c ∈ cs, isPrintable c) : Printable (String.ofList cs) := by
  unfold Printable
  rw [String.toList_ofList]
  exact printable

/-- In ASCII all characters from the blank to the tilde are printable. -/
theorem isPrintable_of_ascii (low : 0x20 ≤ c.toNat) (high : c.toNat < 0x7F) : isPrintable c := by
  have outside : inRanges c.toNat nonPrintableRanges = false := by
    unfold nonPrintableRanges
    rw [inRanges, if_neg (by omega), inRanges, if_pos high, decide_eq_false (by omega)]
    rfl
  rw [isPrintable, outside]
  rfl

/-! ## Digits -/

/-- The digits of a number in a base up to sixteen. -/
theorem isPrintable_toDigits {b : Nat} (base : 1 < b) (small : b ≤ 16) (n : Nat) :
    ∀ c ∈ Nat.toDigits b n, isPrintable c := by
  have digit (d : Nat) (below : d < 16) : isPrintable d.digitChar := by
    decide +revert
  induction n using Nat.strongRecOn with
  | ind n ih =>
    rw [Nat.toDigits_eq_if base]
    split
    next below =>
      exact List.forall_mem_singleton.2 (digit n (Nat.lt_of_lt_of_le below small))
    next more =>
      have positive : 0 < n := Nat.lt_of_lt_of_le (Nat.zero_lt_of_lt base) (Nat.le_of_not_lt more)
      have last : n % b < b := Nat.mod_lt n (Nat.zero_lt_of_lt base)
      exact List.forall_mem_append.2 ⟨ih (n / b) (Nat.div_lt_self positive base),
        List.forall_mem_singleton.2 (digit _ (Nat.lt_of_lt_of_le last small))⟩

/-- Digits and a sign are printable. -/
theorem printable_digits (n : Int) : Printable (String.ofList (Decimal.digits n)) := by
  refine printable_ofList ?_
  have decimals := isPrintable_toDigits (b := 10) (by decide) (by decide) n.natAbs
  unfold Decimal.digits
  split
  · exact List.forall_mem_cons.2 ⟨by decide, decimals⟩
  · exact decimals

/-! ## Quotes -/

/-- A number in base sixteen, with zeros in front, is printable. -/
theorem isPrintable_hexPadded (width n : Nat) : ∀ c ∈ hexPadded width n, isPrintable c := by
  refine List.forall_mem_append.2 ⟨fun c zero => ?_, isPrintable_toDigits (by decide) (by decide) n⟩
  rw [List.eq_of_mem_replicate zero]
  decide

/-- The escape of a character by its number is printable. -/
theorem isPrintable_numericEscape (c : Char) : ∀ d ∈ numericEscape c, isPrintable d := by
  have escape {u : Char} (letter : isPrintable u) (width : Nat) :
      ∀ d ∈ '\\' :: u :: hexPadded width c.toNat, isPrintable d :=
    List.forall_mem_cons.2 ⟨by decide,
      List.forall_mem_cons.2 ⟨letter, isPrintable_hexPadded width c.toNat⟩⟩
  unfold numericEscape
  dsimp only
  split
  · exact escape (by decide) 2
  split
  · exact escape (by decide) 4
  · exact escape (by decide) 8

/-- Whatever a character is, what stands for it between quotes is printable: itself, or an escape.
-/
theorem isPrintable_escapeChar {q : Char} (quote : isPrintable q) (c : Char) :
    ∀ d ∈ escapeChar q c, isPrintable d := by
  have escape {d : Char} (printable : isPrintable d) : ∀ e ∈ ['\\', d], isPrintable e :=
    List.forall_mem_cons.2 ⟨by decide, List.forall_mem_singleton.2 printable⟩
  unfold escapeChar
  split
  next special =>
    rcases special with rfl | rfl
    · exact escape (by decide)
    · exact escape quote
  split
  · exact escape (by decide)
  split
  · exact escape (by decide)
  split
  · exact escape (by decide)
  split
  next printable => exact List.forall_mem_singleton.2 printable
  · exact isPrintable_numericEscape c

theorem isPrintable_quoteFor (cs : List Char) : isPrintable (quoteFor cs) := by
  unfold quoteFor
  split
  · decide
  · decide

/-- Between quotes every text is printable, whatever it holds. -/
theorem printable_quoted (s : String) : Printable (quoted s) := by
  refine printable_ofList ?_
  have quote := isPrintable_quoteFor s.toList
  refine List.forall_mem_append.2
    ⟨List.forall_mem_cons.2 ⟨quote, fun d mem => ?_⟩, List.forall_mem_singleton.2 quote⟩
  rcases List.mem_flatMap.1 mem with ⟨c, -, escaped⟩
  exact isPrintable_escapeChar quote c d escaped

end GotoBasic.Text
