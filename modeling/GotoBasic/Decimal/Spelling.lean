import GotoBasic.Text.Blank
import GotoBasic.Text.Digit

/-!
# Spellings of numbers

A number may be spelled with blanks around it, with digits of any script, and with single low
lines between digits.  `plain?` undoes all three: it gives the spelling in ASCII that the readers
of integers and of doubles take.  Text that a program is scanned to is plain already
(`plain?_eq_self`).
-/

namespace GotoBasic.Decimal

/-- A digit of base ten in ASCII. -/
def isDigit (c : Char) : Bool := '0' ≤ c && c ≤ '9'

/-- The blanks of ASCII that may stand around a number.  The four separator controls are not
among them. -/
def isPad (c : Char) : Bool := c == ' ' || (0x09 ≤ c.toNat && c.toNat ≤ 0x0D)

/-- A blank or a digit beyond ASCII becomes its counterpart in ASCII. -/
def plainChar (c : Char) : Char :=
  if c.toNat < 0x80 then c
  else if Text.isBlank c then ' '
  else
    match Text.digitValue? c with
    | some d => Nat.digitChar d
    | none => c

/-- Drops low lines, each of which must stand between two digits; `afterDigit` says whether a
digit stood before the text. -/
def ungroup? (afterDigit : Bool) : List Char → Option (List Char)
  | [] => some []
  | [c] => if c = '_' then none else some [c]
  | c :: d :: cs =>
    if c = '_' then
      if afterDigit && isDigit d then ungroup? false (d :: cs) else none
    else (ungroup? (isDigit c) (d :: cs)).map (c :: ·)

/-- The plain spelling of a number, if its low lines are well placed. -/
def plain? (cs : List Char) : Option (List Char) :=
  let spelled := (cs.map plainChar).dropWhile isPad
  ungroup? false (Text.dropWhileEnd isPad spelled)

/-! ## Plain text stays as it is -/

/-- A character that is its own plain spelling wherever it stands. -/
def isPlain (c : Char) : Bool := c.toNat < 0x80 && !isPad c && c != '_'

theorem dropWhile_eq_self {p : Char → Bool} {cs : List Char} (none : ∀ c ∈ cs, p c = false) :
    cs.dropWhile p = cs := by
  cases cs with
  | nil => rfl
  | cons c cs => simp [none c List.mem_cons_self]

theorem ungroup?_eq_self {cs : List Char} (afterDigit : Bool) (none : ∀ c ∈ cs, c ≠ '_') :
    ungroup? afterDigit cs = some cs := by
  induction cs generalizing afterDigit with
  | nil => rfl
  | cons c cs ih =>
    have rest := ih (isDigit c) fun d mem => none d (List.mem_cons_of_mem c mem)
    cases cs with
    | nil => simp [ungroup?, none c List.mem_cons_self]
    | cons d cs => simp [ungroup?, none c List.mem_cons_self, rest]

theorem plain?_eq_self {cs : List Char} (plain : ∀ c ∈ cs, isPlain c) : plain? cs = some cs := by
  have small (c : Char) (mem : c ∈ cs) : plainChar c = c := by
    have := plain c mem
    simp [isPlain] at this
    simp [plainChar, this.1.1]
  have inside (c : Char) (mem : c ∈ cs) : isPad c = false := by
    have := plain c mem
    simp [isPlain] at this
    exact this.1.2
  have single (c : Char) (mem : c ∈ cs) : c ≠ '_' := by
    have := plain c mem
    simp [isPlain] at this
    exact this.2
  have mapped : cs.map plainChar = cs := by
    rw [List.map_congr_left small, List.map_id']
  have back : Text.dropWhileEnd isPad cs = cs := by
    simp [Text.dropWhileEnd, dropWhile_eq_self fun c mem => inside c (List.mem_reverse.1 mem)]
  simp [plain?, mapped, dropWhile_eq_self inside, back, ungroup?_eq_self false single]

end GotoBasic.Decimal
