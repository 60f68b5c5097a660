import GotoBasic.Decimal.Integer
import GotoBasic.Token

/-!
# From text to tokens

`lexeme?` is the table of lexical rules: it says how many characters at the front of a text
belong together and what they denote.  The first rule that applies decides.  `scan` walks over a
text character by character, so that positions are counted in one place, and consults the rules
wherever a lexeme ends.

* A string ends at the first quote that no backslash protects.  If every quote is protected, it
  ends at the last one, whose backslash is then an ordinary character.
* A comment takes its line feed with it, so it joins its line to the next.
-/

namespace GotoBasic

namespace Lexer

open Decimal (isDigit)

/-! ## Character classes -/

/-- Blanks that separate tokens.  A line feed does not: it is a token. -/
def isSpace (c : Char) : Bool := c == ' ' || c == '\t' || c == '\r'

def isLetter (c : Char) : Bool := ('A' ≤ c && c ≤ 'Z') || ('a' ≤ c && c ≤ 'z')

/-- The characters of words. -/
def isWordChar (c : Char) : Bool := isLetter c || isDigit c || c == '-'

/-- The three characters that open and close strings: quotation mark, apostrophe, grave. -/
def isQuote (c : Char) : Bool := c.toNat == 0x22 || c.toNat == 0x27 || c.toNat == 0x60

/-- The operators of one character. -/
def isOperatorChar (c : Char) : Bool := "+-*/|<>!=():".toList.contains c

/-- The operators of two characters, which are tried before those of one. -/
def isOperatorPair (c d : Char) : Bool :=
  (c == '+' && d == '+') || (c == '&' && d == '&') || (c == '|' && d == '|') ||
    (c == '=' && d == '=') || (c == '!' && d == '=')

/-! ## Strings -/

/-- How many characters stand before the first `q` that no backslash protects. -/
def firstBare? (q : Char) : List Char → Option Nat
  | [] => none
  | [c] => if c = q then some 0 else none
  | c :: d :: cs =>
    if c = '\\' then (firstBare? q cs).map (· + 2)
    else if c = q then some 0
    else (firstBare? q (d :: cs)).map (· + 1)

/-- How many characters stand before the last `q`. -/
def lastIndex? (q : Char) : List Char → Option Nat
  | [] => none
  | c :: cs =>
    match lastIndex? q cs with
    | some n => some (n + 1)
    | none => if c = q then some 0 else none

/-- The length of the string body that starts here and is closed by `q`. -/
def bodyLength? (q : Char) (cs : List Char) : Option Nat :=
  match firstBare? q cs with
  | some n => some n
  | none => lastIndex? q cs

/-- Replaces every backslash and the character behind it by that character.  A backslash at the
very end stays. -/
def unescape : List Char → List Char
  | [] => []
  | [c] => [c]
  | c :: d :: cs => if c = '\\' then d :: unescape cs else c :: unescape (d :: cs)

/-! ## Rules -/

/-- A match of a rule: the kind and text of the token that it denotes, nothing for what is
skipped, and the number of characters that it takes, which is not zero. -/
structure Lexeme where
  denotes : Option (TokenKind × String)
  length : Nat
  deriving DecidableEq, Repr

/-- A token whose text is its own spelling, made of the characters `cs`. -/
def Lexeme.spelled (kind : TokenKind) (cs : List Char) : Lexeme :=
  ⟨some (kind, String.ofList cs), cs.length⟩

/-- A comment runs up to the end of its line and takes the line feed. -/
def comment (cs : List Char) : Lexeme :=
  let body := cs.takeWhile (· != '\n')
  ⟨none, body.length + (if body.length < cs.length then 1 else 0)⟩

/-- A run of digits, made a float by a point behind it. -/
def number (cs : List Char) : Lexeme :=
  let whole := cs.takeWhile isDigit
  match cs.dropWhile isDigit with
  | '.' :: rest => .spelled .float (whole ++ '.' :: rest.takeWhile isDigit)
  | _ => .spelled .int whole

/-- A word is a reserved word or an identifier. -/
def word (cs : List Char) : Lexeme :=
  let w := cs.takeWhile isWordChar
  match Keyword.ofSpelling? (String.ofList w) with
  | some k => .spelled (.keyword k) w
  | none => .spelled .ident w

/-- A string that `q` opens; `cs` is the text behind it. -/
def string? (q : Char) (cs : List Char) : Option Lexeme :=
  (bodyLength? q cs).map fun n =>
    ⟨some (.string, String.ofList (unescape (cs.take n))), n + 2⟩

/-- The lexeme at the front of the text `c :: cs`, if a rule applies. -/
def lexeme? (c : Char) (cs : List Char) : Option Lexeme :=
  let next := cs.head?
  if isSpace c then some ⟨none, 1⟩
  else if c = '/' ∧ next = some '/' then some (comment (c :: cs))
  else if next.any (isOperatorPair c) then some (.spelled .op (c :: cs.take 1))
  else if isOperatorChar c then some (.spelled .op [c])
  else if isDigit c then some (number (c :: cs))
  else if isQuote c then string? c cs
  else if c = '#' ∧ (next = some 't' ∨ next = some 'f') then
    some (.spelled .bool (c :: cs.take 1))
  else if c = '\n' then some (.spelled .newline [c])
  else if c = '\\' then some (.spelled .op [c])
  else if isLetter c then some (word (c :: cs))
  else none

/-- Every lexeme takes at least one character. -/
theorem length_pos_of_lexeme? {c : Char} {cs : List Char} {l : Lexeme}
    (h : lexeme? c cs = some l) : 0 < l.length := by
  unfold lexeme? at h
  dsimp only at h
  split at h
  · cases h; exact Nat.one_pos
  split at h
  next slash =>
    cases h
    have : ((c :: cs).takeWhile (· != '\n')).length ≠ 0 := by simp [slash.1]
    simp only [comment]; omega
  split at h
  · cases h; simp [Lexeme.spelled]
  split at h
  · cases h; exact Nat.one_pos
  split at h
  next digit =>
    cases h
    simp only [number]
    split <;> simp [Lexeme.spelled, digit]
  split at h
  · obtain ⟨n, -, rfl⟩ := Option.map_eq_some_iff.1 h
    exact Nat.succ_pos _
  split at h
  · cases h; simp [Lexeme.spelled]
  split at h
  · cases h; exact Nat.one_pos
  split at h
  · cases h; exact Nat.one_pos
  split at h
  next letter =>
    cases h
    simp only [word]
    split <;> simp [Lexeme.spelled, isWordChar, letter]
  · cases h

end Lexer

/-! ## Scanning -/

/-- No rule applies to the text `rest`, which starts at `pos`. -/
structure LexError where
  pos : Pos
  rest : String
  deriving DecidableEq, Repr

namespace LexError

/-- The most characters of a line that a message shows. -/
def snippetLength : Nat := 20

/-- The rest of the line at which scanning stopped, cut off if it is long. -/
def snippet (e : LexError) : String :=
  let line := e.rest.toList.takeWhile (· != '\n')
  if snippetLength < line.length then String.ofList (line.take snippetLength) ++ "..."
  else String.ofList line

/-- The wording of the error, without its position. -/
def cause (e : LexError) : String := "unexpected input " ++ Text.quoted e.snippet

def message (e : LexError) : String := e.cause ++ e.pos.suffix

end LexError

namespace Lexer

/-- Scans a text of which the first `skip` characters belong to a lexeme that has been dealt
with; the text starts at `pos`. -/
def scan : (skip : Nat) → Pos → List Char → Except LexError (List Token)
  | _, pos, [] => .ok [⟨.eof, "", pos⟩]
  | skip + 1, pos, c :: cs => scan skip (pos.after c) cs
  | 0, pos, c :: cs =>
    match lexeme? c cs with
    | none => .error ⟨pos, String.ofList (c :: cs)⟩
    | some ⟨none, n⟩ => scan (n - 1) (pos.after c) cs
    | some ⟨some (kind, text), n⟩ =>
      match scan (n - 1) (pos.after c) cs with
      | .ok ts => .ok (⟨kind, text, pos⟩ :: ts)
      | .error e => .error e

/-- Characters to be skipped only move the position. -/
theorem scan_eq_drop (skip : Nat) (pos : Pos) (cs : List Char) :
    scan skip pos cs = scan 0 (pos.afterAll (cs.take skip)) (cs.drop skip) := by
  induction cs generalizing skip pos with
  | nil => cases skip <;> simp [scan]
  | cons c cs ih =>
    cases skip with
    | zero => simp
    | succ n => simp [scan, ih n]

end Lexer

/-- The tokens of a program text, ending with the one token of kind `eof`. -/
def tokenize (source : String) : Except LexError (List Token) :=
  Lexer.scan 0 Pos.start source.toList

end GotoBasic
