import GotoBasic.Binary64.Basic
import GotoBasic.Decimal.Integer

/-!
# Doubles as decimal text

Reading is rounding: a decimal denotes a fraction, and the nearest double is taken.  Writing
chooses, among the decimals that read back as the number, one with the fewest digits, and of
those the nearest to the number.
-/

namespace GotoBasic.Binary64

open Decimal (isDigit)

/-! ## Reading -/

/-- The double nearest to plus or minus `m * 10 ^ e`.  Exponents far beyond the range of doubles
are settled without computing the power. -/
def ofDecimal (negative : Bool) (m : Nat) (e : Int) : Binary64 :=
  if m = 0 then .finite negative 0
  else if 309 < e then .infinite negative
  else if 0 ≤ e then ofRatio negative (m * Nat.pow 10 e.toNat) 1
  else if e + m.log2 + 1 < -324 then .finite negative 0
  else ofRatio negative m (Nat.pow 10 (-e).toNat)

/-- The number that a nonempty text of digits denotes, however long it is. -/
def natOfDigits? (cs : List Char) : Option Nat :=
  if cs.isEmpty || !cs.all isDigit then none else some (Nat.ofDigitChars 10 cs 0)

/-- The exponent part of a decimal: nothing, or a mark, an optional sign and digits. -/
def exponentOfText? : List Char → Option Int
  | [] => some 0
  | c :: cs =>
    if c = 'e' ∨ c = 'E' then
      match cs with
      | '-' :: ds => (natOfDigits? ds).map fun n => -(n : Int)
      | '+' :: ds => (natOfDigits? ds).map fun n => (n : Int)
      | ds => (natOfDigits? ds).map fun n => (n : Int)
    else none

/-- The fraction and exponent parts of a decimal whose whole part has the digits `whole`. -/
def unsignedOfParts? (negative : Bool) (whole rest : List Char) : Option Binary64 :=
  let (fraction, exponent) :=
    match rest with
    | '.' :: cs => (cs.takeWhile isDigit, cs.dropWhile isDigit)
    | cs => ([], cs)
  if whole.isEmpty && fraction.isEmpty then none
  else
    (exponentOfText? exponent).map fun e =>
      ofDecimal negative (Nat.ofDigitChars 10 (whole ++ fraction) 0) (e - fraction.length)

/-- The number that a text without a sign denotes, given the sign that stood before it.  The
words for what is not finite may be written in upper or lower case. -/
def unsignedOfText? (negative : Bool) (cs : List Char) : Option Binary64 :=
  let word := cs.map Char.toLower
  if word = "inf".toList ∨ word = "infinity".toList then some (.infinite negative)
  else if word = "nan".toList then some .nan
  else unsignedOfParts? negative (cs.takeWhile isDigit) (cs.dropWhile isDigit)

/-- The double that a plain decimal text denotes: digits with an optional sign, point and
exponent. -/
def ofPlain? : List Char → Option Binary64
  | '-' :: cs => unsignedOfText? true cs
  | '+' :: cs => unsignedOfText? false cs
  | cs => unsignedOfText? false cs

/-- The double that a text denotes in any spelling. -/
def ofText? (cs : List Char) : Option Binary64 := (Decimal.plain? cs).bind ofPlain?

/-! ## Writing -/

/-- A decimal `digits * 10 ^ exponent`. -/
structure Scientific where
  digits : Nat
  exponent : Int
  deriving DecidableEq, Repr, Inhabited

/-- The greatest `e` such that `10 ^ e` is at most the number of `units`, which are not zero. -/
def decimalExponent (units : Nat) : Int :=
  if one ≤ units then ((Nat.toDigits 10 (units / one)).length : Int) - 1
  else -((Nat.toDigits 10 ((one - 1) / units)).length : Int)

/-- Whether `m * 10 ^ e` reads back as the positive number of `units`. -/
def readsBack (units m : Nat) (e : Int) : Bool := ofDecimal false m e == .finite false units

/-- The decimal nearest to the number of `units` among its two neighbours on the grid of
multiples of `10 ^ e`, if one of them reads back; a tie goes to the even one. -/
def nearestOnGrid? (units : Nat) (e : Int) : Option Scientific :=
  let num := units * Nat.pow 10 (-e).toNat
  let den := one * Nat.pow 10 e.toNat
  let low := num / den
  let near := roundHalfEven num den
  let far := if near = low then low + 1 else low
  if readsBack units near e then some ⟨near, e⟩
  else if readsBack units far e then some ⟨far, e⟩
  else none

/-- The shortest decimal that reads back as the number of `units`.  Seventeen digits are always
enough. -/
def shortest (units : Nat) : Scientific :=
  let e := decimalExponent units
  let grid (n : Nat) : Option Scientific := nearestOnGrid? units (e - n)
  ((List.range 17).findSome? grid).getD ⟨units, -1074⟩

/-- Decimal exponents from `positionalFrom` up to and not including `positionalTo` are written
with a plain decimal point. -/
def positionalFrom : Int := -4

@[inherit_doc positionalFrom]
def positionalTo : Int := 16

/-- The digits of a whole number without the zeros at its end. -/
def significantDigits (m : Nat) : List Char :=
  ((Nat.toDigits 10 m).reverse.dropWhile (· == '0')).reverse

/-- An exponent with its sign and at least two digits. -/
def exponentText (e : Int) : List Char :=
  let ds := Nat.toDigits 10 e.natAbs
  'e' :: (if e < 0 then '-' else '+') :: (List.replicate (2 - ds.length) '0' ++ ds)

/-- Lays out digits whose first one has the weight `10 ^ e`. -/
def layout (ds : List Char) (e : Int) : List Char :=
  if positionalFrom ≤ e ∧ e < positionalTo then
    if e < 0 then '0' :: '.' :: (List.replicate ((-e).toNat - 1) '0' ++ ds)
    else
      let width := e.toNat + 1
      let whole := ds.take width
      let fraction := ds.drop width
      whole ++ List.replicate (width - whole.length) '0' ++
        '.' :: (if fraction.isEmpty then ['0'] else fraction)
  else
    match ds with
    | [] => exponentText e
    | [d] => d :: exponentText e
    | d :: ds => d :: '.' :: (ds ++ exponentText e)

/-- The text of a positive number of `units`. -/
def positiveText (units : Nat) : List Char :=
  let d := shortest units
  layout (significantDigits d.digits) (d.exponent + (Nat.toDigits 10 d.digits).length - 1)

/-- The text of a double. -/
def text : Binary64 → String
  | .finite s u =>
    String.ofList ((if s then ['-'] else []) ++ (if u = 0 then "0.0".toList else positiveText u))
  | .infinite s => if s then "-inf" else "inf"
  | .nan => "nan"

end GotoBasic.Binary64
