import GotoBasic.Proofs.Token.WellFormed

/-!
# Texts with another end

A text can be cut behind any of its tokens and be continued with a blank and other tokens: what
stands before the cut is scanned to the same tokens as before (`Lexer.scan_splice`).  This is not
obvious, since two rules look beyond their lexeme.  A string all of whose quotes are protected
ends at the last quote of the whole text, so the new end may not hold a quote.  A comment that no
line feed ends runs up to the end of the text, so the cut stands right behind a token.
-/

namespace GotoBasic

namespace Lexer

open Decimal (isDigit)

/-- A text that can stand behind any token: a blank, and no quotes. -/
structure Spaced (y : List Char) : Prop where
  blank : y.head? = some ' '
  unquoted : ∀ c ∈ y, isQuote c = false

/-- A text whose start belongs to no lexeme before it: nothing, a blank or a line feed. -/
def Apart (y : List Char) : Prop := ∀ c ∈ y.head?, c = ' ' ∨ c = '\n'

theorem Spaced.apart {y : List Char} (spaced : Spaced y) : Apart y := by
  intro c first
  rw [spaced.blank] at first
  cases first
  exact .inl rfl

/-- What opens a string does not stand in a text without quotes. -/
theorem Spaced.notMem {y : List Char} (spaced : Spaced y) {c : Char} (quote : isQuote c) :
    c ∉ y := by
  intro mem
  rw [spaced.unquoted c mem] at quote
  cases quote

/-! ## Runs of characters -/

section Runs

variable {p : Char → Bool} {a y y' : List Char}

theorem takeWhile_splice (short : ((a ++ y).takeWhile p).length ≤ a.length)
    (stop : y'.takeWhile p = []) : (a ++ y').takeWhile p = (a ++ y).takeWhile p := by
  rw [List.takeWhile_append] at short ⊢
  rw [List.takeWhile_append]
  split at short
  next whole =>
    rw [List.length_append] at short
    have none : y.takeWhile p = [] := List.eq_nil_of_length_eq_zero (by omega)
    rw [if_pos whole, if_pos whole, stop, none]
  next part => rw [if_neg part, if_neg part]

theorem takeWhile_splice_of_lt (short : ((a ++ y).takeWhile p).length < a.length) :
    (a ++ y').takeWhile p = (a ++ y).takeWhile p := by
  rw [List.takeWhile_append] at short ⊢
  rw [List.takeWhile_append]
  split at short
  next whole =>
    rw [List.length_append] at short
    omega
  next part => rw [if_neg part, if_neg part]

/-- What stands behind a run that does not reach the cut. -/
theorem dropWhile_splice (short : ((a ++ y).takeWhile p).length ≤ a.length)
    (stop : y'.takeWhile p = []) :
    ∃ r, a = (a ++ y).takeWhile p ++ r ∧ (a ++ y).dropWhile p = r ++ y ∧
      (a ++ y').dropWhile p = r ++ y' := by
  have front : (a ++ y).takeWhile p <+: a :=
    List.prefix_of_prefix_length_le (List.takeWhile_prefix p) (List.prefix_append a y) short
  obtain ⟨r, shape⟩ := front
  have behind (z : List Char) (same : (a ++ z).takeWhile p = (a ++ y).takeWhile p) :
      (a ++ z).dropWhile p = r ++ z := by
    have whole := List.takeWhile_append_dropWhile (p := p) (l := a ++ z)
    rw [same] at whole
    refine List.append_cancel_left (whole.trans ?_)
    rw [← List.append_assoc, shape]
  exact ⟨r, shape.symm, behind y rfl, behind y' (takeWhile_splice short stop)⟩

end Runs

theorem Apart.takeWhile_eq_nil {p : Char → Bool} {y : List Char} (apart : Apart y)
    (blank : p ' ' = false) (feed : p '\n' = false) : y.takeWhile p = [] := by
  cases y with
  | nil => rfl
  | cons c y =>
    have stop : p c = false := by rcases apart c rfl with rfl | rfl <;> assumption
    rw [List.takeWhile_cons, stop]
    rfl

/-! ## Strings -/

theorem ne_backslash_of_isQuote {c : Char} (quote : isQuote c) : c ≠ '\\' := by
  rintro rfl
  cases quote

section Strings

variable {q : Char} (notBackslash : q ≠ '\\')

include notBackslash

theorem firstBare?_cons (c : Char) (cs : List Char) :
    firstBare? q (c :: cs) =
      if c = '\\' then (firstBare? q (cs.drop 1)).map (· + 2)
      else if c = q then some 0
      else (firstBare? q cs).map (· + 1) := by
  cases cs with
  | cons d cs => rfl
  | nil =>
    unfold firstBare?
    by_cases backslash : c = '\\'
    · rw [if_pos backslash, if_neg (by rw [backslash]; exact notBackslash.symm)]
      rfl
    · rw [if_neg backslash]
      rfl

/-- The end of a string is a quote. -/
theorem getElem?_of_firstBare? {n : Nat} {cs : List Char} (found : firstBare? q cs = some n) :
    cs[n]? = some q := by
  induction size : cs.length using Nat.strongRecOn generalizing cs n with
  | ind k ih =>
    cases cs with
    | nil => cases found
    | cons c cs =>
      rw [List.length_cons] at size
      rw [firstBare?_cons notBackslash] at found
      split at found
      · obtain ⟨m, later, rfl⟩ := Option.map_eq_some_iff.1 found
        have this := ih (cs.drop 1).length (by rw [List.length_drop]; omega) later rfl
        rw [List.getElem?_drop] at this
        rw [List.getElem?_cons_succ, ← this, Nat.add_comm]
      · split at found
        next same =>
          cases found
          rw [same]
          rfl
        · obtain ⟨m, later, rfl⟩ := Option.map_eq_some_iff.1 found
          rw [List.getElem?_cons_succ]
          exact ih cs.length (by omega) later rfl

/-- Whether a quote is protected depends on what stands before it. -/
theorem firstBare?_splice {n : Nat} {x y : List Char} (y' : List Char)
    (found : firstBare? q (x ++ y) = some n) (inside : n < x.length) :
    firstBare? q (x ++ y') = some n := by
  induction size : x.length using Nat.strongRecOn generalizing x n with
  | ind k ih =>
    cases x with
    | nil => cases inside
    | cons c x =>
      rw [List.length_cons] at size inside
      rw [List.cons_append, firstBare?_cons notBackslash] at found ⊢
      split at found
      next backslash =>
        rw [if_pos backslash]
        obtain ⟨m, later, rfl⟩ := Option.map_eq_some_iff.1 found
        have drop (z : List Char) : (x ++ z).drop 1 = x.drop 1 ++ z :=
          List.drop_append_of_le_length (by omega)
        rw [drop] at later ⊢
        rw [ih (x.drop 1).length (by rw [List.length_drop]; omega) later
          (by rw [List.length_drop]; omega) rfl]
        rfl
      next other =>
        rw [if_neg other]
        split at found
        next same =>
          cases found
          rw [if_pos same]
        next differs =>
          rw [if_neg differs]
          obtain ⟨m, later, rfl⟩ := Option.map_eq_some_iff.1 found
          rw [ih x.length (by omega) later (by omega) rfl]
          rfl

end Strings

theorem lastIndex?_eq_none_iff {q : Char} {cs : List Char} :
    lastIndex? q cs = none ↔ q ∉ cs := by
  induction cs with
  | nil => simp [lastIndex?]
  | cons c cs ih =>
    rw [lastIndex?, List.mem_cons, not_or, ← ih]
    cases lastIndex? q cs with
    | some n => simp
    | none =>
      by_cases same : c = q
      · simp [same]
      · simp [same, Ne.symm same]

theorem lastIndex?_lt {q : Char} {n : Nat} {cs : List Char} (found : lastIndex? q cs = some n) :
    n < cs.length := by
  induction cs generalizing n with
  | nil => cases found
  | cons c cs ih =>
    rw [lastIndex?] at found
    rw [List.length_cons]
    cases last : lastIndex? q cs with
    | some m =>
      rw [last] at found
      cases found
      exact Nat.succ_lt_succ (ih last)
    | none =>
      rw [last] at found
      dsimp only at found
      split at found
      · cases found
        exact Nat.succ_pos _
      · cases found

theorem lastIndex?_splice {q : Char} {n : Nat} {x y y' : List Char} (unquoted : q ∉ y')
    (found : lastIndex? q (x ++ y) = some n) (inside : n < x.length) :
    lastIndex? q (x ++ y') = some n := by
  induction x generalizing n with
  | nil => cases inside
  | cons c x ih =>
    rw [List.cons_append, lastIndex?] at found ⊢
    cases last : lastIndex? q (x ++ y) with
    | some m =>
      rw [last] at found
      cases found
      rw [ih last (Nat.lt_of_succ_lt_succ inside)]
    | none =>
      rw [last] at found
      have before : q ∉ x := fun mem =>
        lastIndex?_eq_none_iff.1 last (List.mem_append_left y mem)
      have none : lastIndex? q (x ++ y') = none :=
        lastIndex?_eq_none_iff.2 fun mem => (List.mem_append.1 mem).elim before unquoted
      rw [none]
      exact found

theorem bodyLength?_splice {q : Char} {n : Nat} {x y y' : List Char} (notBackslash : q ≠ '\\')
    (unquoted : q ∉ y') (found : bodyLength? q (x ++ y) = some n) (inside : n < x.length) :
    bodyLength? q (x ++ y') = some n := by
  unfold bodyLength? at found ⊢
  cases bare : firstBare? q (x ++ y) with
  | some m =>
    rw [bare] at found
    cases found
    rw [firstBare?_splice notBackslash y' bare inside]
  | none =>
    rw [bare] at found
    -- A bare quote in the new text would stand before the cut, and so be one of the old text.
    have none : firstBare? q (x ++ y') = none := by
      cases bare' : firstBare? q (x ++ y') with
      | none => rfl
      | some m =>
        have quote := getElem?_of_firstBare? notBackslash bare'
        have before : m < x.length := by
          refine Nat.lt_of_not_le fun beyond => unquoted ?_
          rw [List.getElem?_append_right beyond] at quote
          exact List.mem_of_getElem? quote
        rw [firstBare?_splice notBackslash y bare' before] at bare
        cases bare
    rw [none]
    exact lastIndex?_splice unquoted found inside

theorem bodyLength?_lt {q : Char} {n : Nat} {cs : List Char} (notBackslash : q ≠ '\\')
    (found : bodyLength? q cs = some n) : n < cs.length := by
  unfold bodyLength? at found
  cases bare : firstBare? q cs with
  | some m =>
    rw [bare] at found
    cases found
    exact (List.getElem?_eq_some_iff.1 (getElem?_of_firstBare? notBackslash bare)).1
  | none =>
    rw [bare] at found
    exact lastIndex?_lt found

/-! ## Rules -/

/-- No lexeme reaches beyond the text. -/
theorem length_le_of_lexeme? {c : Char} {cs : List Char} {l : Lexeme}
    (found : lexeme? c cs = some l) : l.length ≤ (c :: cs).length := by
  cases finds_of_lexeme? found with
  | blank space => exact Nat.succ_pos _
  | comment slash second =>
    have body := (List.takeWhile_prefix (l := c :: cs) (· != '\n')).length_le
    unfold comment
    dsimp only
    split
    · omega
    · omega
  | spelled front plain => exact front.length_le
  | string quote found =>
    obtain ⟨n, ended, rfl⟩ := Option.map_eq_some_iff.1 found
    exact Nat.succ_le_succ (bodyLength?_lt (ne_backslash_of_isQuote quote) ended)

section Rules

variable {a y y' : List Char} (apart : Apart y')

include apart in
theorem number_splice (inside : (number (a ++ y)).length ≤ a.length) :
    number (a ++ y') = number (a ++ y) := by
  have stop := apart.takeWhile_eq_nil (p := isDigit) rfl rfl
  have short : ((a ++ y).takeWhile isDigit).length ≤ a.length := by
    refine Nat.le_trans ?_ inside
    unfold number
    dsimp only
    split
    · simp [Lexeme.spelled]
    · exact Nat.le_refl _
  obtain ⟨r, shape, behind, behind'⟩ := dropWhile_splice short stop
  have size := congrArg List.length shape
  rw [List.length_append] at size
  unfold number at inside ⊢
  rw [behind] at inside ⊢
  rw [behind', takeWhile_splice short stop]
  cases r with
  | nil =>
    -- The digits end at the cut, so a point behind them would stand beyond it.
    have point : ∀ z, y ≠ '.' :: z := by
      rintro z rfl
      simp only [List.nil_append, Lexeme.spelled, List.length_append, List.length_cons] at inside
      simp only [List.length_nil] at size
      omega
    have point' : ∀ z, y' ≠ '.' :: z := by
      rintro z rfl
      have separate := apart '.' rfl
      revert separate
      decide
    split
    next z shape' => exact absurd shape' (point' z)
    · split
      next z shape' => exact absurd shape' (point z)
      · rfl
  | cons d r =>
    by_cases point : d = '.'
    · subst point
      simp only [List.cons_append, Lexeme.spelled, List.length_append, List.length_cons]
        at inside size ⊢
      have fraction : ((r ++ y).takeWhile isDigit).length ≤ r.length := by omega
      rw [takeWhile_splice fraction stop]
    · rw [List.cons_append, List.cons_append]
      split
      next z shape' => exact absurd (List.cons.inj shape').1 point
      · split
        next z shape' => exact absurd (List.cons.inj shape').1 point
        · rfl

include apart in
theorem word_splice (inside : (word (a ++ y)).length ≤ a.length) :
    word (a ++ y') = word (a ++ y) := by
  have short : ((a ++ y).takeWhile isWordChar).length ≤ a.length := by
    refine Nat.le_trans ?_ inside
    unfold word
    dsimp only
    split
    · exact Nat.le_refl _
    · exact Nat.le_refl _
  unfold word
  rw [takeWhile_splice short (apart.takeWhile_eq_nil rfl rfl)]

/-- A comment that ends before the end of the text ends with its line feed. -/
theorem comment_splice (inside : (comment (a ++ y)).length ≤ a.length)
    (ended : (comment (a ++ y)).length < (a ++ y).length) :
    comment (a ++ y') = comment (a ++ y) := by
  unfold comment at inside ended ⊢
  dsimp only at inside ended ⊢
  have run := (List.takeWhile_prefix (l := a ++ y) (· != '\n')).length_le
  by_cases feed : ((a ++ y).takeWhile (· != '\n')).length < (a ++ y).length
  · rw [if_pos feed] at inside ⊢
    have before : ((a ++ y).takeWhile (· != '\n')).length < a.length := by omega
    rw [takeWhile_splice_of_lt before, if_pos]
    rw [List.length_append]
    omega
  · rw [if_neg feed] at ended
    omega

theorem string?_splice {q : Char} {l : Lexeme} (quote : isQuote q) (unquoted : q ∉ y')
    (found : string? q (a ++ y) = some l) (inside : l.length ≤ a.length + 1) :
    string? q (a ++ y') = some l := by
  obtain ⟨n, ended, rfl⟩ := Option.map_eq_some_iff.1 found
  have before : n < a.length := Nat.lt_of_succ_le (Nat.le_of_succ_le_succ inside)
  have take (z : List Char) : (a ++ z).take n = a.take n :=
    List.take_append_of_le_length (Nat.le_of_lt before)
  rw [string?, bodyLength?_splice (ne_backslash_of_isQuote quote) unquoted ended before,
    Option.map_some, take, take]

end Rules

/-! ### One character or two -/

/-- The rules that look at two characters. -/
def pairLexeme? (c : Char) : List Char → Option Lexeme
  | [] => none
  | d :: cs =>
    if c = '/' ∧ d = '/' then some (comment (c :: d :: cs))
    else if isOperatorPair c d then some (.spelled .op [c, d])
    else if c = '#' ∧ (d = 't' ∨ d = 'f') then some (.spelled .bool [c, d])
    else none

/-- The rules that choose by one character. -/
def singleLexeme? (c : Char) (cs : List Char) : Option Lexeme :=
  if isSpace c then some ⟨none, 1⟩
  else if isOperatorChar c then some (.spelled .op [c])
  else if isDigit c then some (number (c :: cs))
  else if isQuote c then string? c cs
  else if c = '\n' then some (.spelled .newline [c])
  else if c = '\\' then some (.spelled .op [c])
  else if isLetter c then some (word (c :: cs))
  else none

/-- What opens an operator of two characters is no blank. -/
theorem isSpace_of_isOperatorPair {c d : Char} (pair : isOperatorPair c d) : isSpace c = false := by
  simp only [isOperatorPair, Bool.or_eq_true, Bool.and_eq_true, beq_iff_eq] at pair
  rcases pair with (((⟨rfl, -⟩ | ⟨rfl, -⟩) | ⟨rfl, -⟩) | ⟨rfl, -⟩) | ⟨rfl, -⟩ <;> rfl

/-- The rules that look at two characters go first.  One of them stands further down in the table,
but no rule before it is for its first character. -/
theorem lexeme?_eq_or (c : Char) (cs : List Char) :
    lexeme? c cs = (pairLexeme? c cs).or (singleLexeme? c cs) := by
  cases cs with
  | nil => simp [lexeme?, pairLexeme?, singleLexeme?]
  | cons d cs =>
    by_cases slashes : c = '/' ∧ d = '/'
    · obtain ⟨rfl, rfl⟩ := slashes
      rfl
    by_cases pair : isOperatorPair c d
    · have space := isSpace_of_isOperatorPair pair
      simp [lexeme?, pairLexeme?, slashes, pair, space]
    by_cases truth : c = '#' ∧ (d = 't' ∨ d = 'f')
    · obtain ⟨rfl, rfl | rfl⟩ := truth <;> rfl
    · simp [lexeme?, pairLexeme?, singleLexeme?, slashes, pair, truth]

/-- A rule that looks at two characters takes both. -/
theorem two_le_length_of_pairLexeme? {c : Char} {cs : List Char} {l : Lexeme}
    (found : pairLexeme? c cs = some l) : 2 ≤ l.length := by
  cases cs with
  | nil => cases found
  | cons d cs =>
    unfold pairLexeme? at found
    dsimp only at found
    split at found
    next slashes =>
      obtain ⟨rfl, rfl⟩ := slashes
      cases found
      have body : 2 ≤ (('/' :: '/' :: cs).takeWhile (· != '\n')).length := by simp
      exact Nat.le_trans body (Nat.le_add_right _ _)
    split at found
    · cases found
      exact Nat.le_refl _
    split at found
    · cases found
      exact Nat.le_refl _
    · cases found

/-- No blank and no line feed is the second character of a rule. -/
theorem pairLexeme?_of_apart (c : Char) {y : List Char} (apart : Apart y) :
    pairLexeme? c y = none := by
  cases y with
  | nil => rfl
  | cons d y =>
    unfold pairLexeme?
    rcases apart d rfl with rfl | rfl <;> simp [isOperatorPair]

section Lookahead

variable {c : Char} {x y y' : List Char} {l : Lexeme}

theorem pairLexeme?_splice (found : pairLexeme? c (x ++ y) = some l)
    (inside : l.length ≤ (c :: x).length)
    (ended : l.denotes = none → l.length < (c :: (x ++ y)).length) :
    pairLexeme? c (x ++ y') = some l := by
  have long := two_le_length_of_pairLexeme? found
  cases x with
  | nil => exact absurd (Nat.le_trans long inside) (by simp)
  | cons d x =>
    unfold pairLexeme? at found ⊢
    dsimp only [List.cons_append] at found ⊢
    split at found
    next slashes =>
      cases found
      rw [if_pos slashes]
      exact congrArg some (comment_splice (a := c :: d :: x) inside (ended rfl))
    next slashes =>
    rw [if_neg slashes]
    exact found

theorem pairLexeme?_eq_none_splice (apart : Apart y') (none : pairLexeme? c (x ++ y) = none) :
    pairLexeme? c (x ++ y') = Option.none := by
  cases x with
  | nil => exact pairLexeme?_of_apart c apart
  | cons d x =>
    unfold pairLexeme? at none ⊢
    dsimp only [List.cons_append] at none ⊢
    split at none
    next slashes => cases none
    next slashes =>
    rw [if_neg slashes]
    exact none

theorem singleLexeme?_splice (apart : Apart y') (unquoted : isQuote c → c ∉ y')
    (found : singleLexeme? c (x ++ y) = some l) (inside : l.length ≤ (c :: x).length) :
    singleLexeme? c (x ++ y') = some l := by
  unfold singleLexeme? at found ⊢
  split at found
  next space => rw [if_pos space]; exact found
  next space =>
  rw [if_neg space]
  split at found
  next operator => rw [if_pos operator]; exact found
  next operator =>
  rw [if_neg operator]
  split at found
  next digit =>
    rw [if_pos digit]
    cases found
    exact congrArg some (number_splice (a := c :: x) apart inside)
  next digit =>
  rw [if_neg digit]
  split at found
  next quote =>
    rw [if_pos quote]
    exact string?_splice quote (unquoted quote) found inside
  next quote =>
  rw [if_neg quote]
  split at found
  next feed => rw [if_pos feed]; exact found
  next feed =>
  rw [if_neg feed]
  split at found
  next backslash => rw [if_pos backslash]; exact found
  next backslash =>
  rw [if_neg backslash]
  split at found
  next letter =>
    rw [if_pos letter]
    cases found
    exact congrArg some (word_splice (a := c :: x) apart inside)
  · cases found

/-- A lexeme before the cut stays what it is.  Only for a string it matters whether the new end
has quotes. -/
theorem lexeme?_splice (apart : Apart y') (unquoted : isQuote c → c ∉ y')
    (found : lexeme? c (x ++ y) = some l) (inside : l.length ≤ (c :: x).length)
    (ended : l.denotes = none → l.length < (c :: (x ++ y)).length) :
    lexeme? c (x ++ y') = some l := by
  rw [lexeme?_eq_or] at found ⊢
  cases pair : pairLexeme? c (x ++ y) with
  | some l' =>
    rw [pair, Option.some_or] at found
    cases found
    rw [pairLexeme?_splice pair inside ended, Option.some_or]
  | none =>
    rw [pair, Option.none_or] at found
    rw [pairLexeme?_eq_none_splice apart pair, Option.none_or]
    exact singleLexeme?_splice apart unquoted found inside

end Lookahead

/-! ## Cutting -/

/-- The token of a lexeme that starts at a position, if it denotes one. -/
def Lexeme.tokens (l : Lexeme) (pos : Pos) : List Token :=
  match l.denotes with
  | none => []
  | some (kind, text) => [⟨kind, text, pos⟩]

/-- Scanning goes from lexeme to lexeme. -/
theorem scan_cons {c : Char} {cs : List Char} {l : Lexeme} (pos : Pos)
    (found : lexeme? c cs = some l) :
    scan 0 pos (c :: cs) =
      (scan 0 ((pos.after c).afterAll (cs.take (l.length - 1))) (cs.drop (l.length - 1))).map
        (l.tokens pos ++ ·) := by
  obtain ⟨denotes, n⟩ := l
  rw [scan, found, ← scan_eq_drop]
  cases denotes with
  | none =>
    dsimp only
    cases scan (n - 1) (pos.after c) cs with
    | ok ts => rfl
    | error e => rfl
  | some denoted =>
    dsimp only
    cases scan (n - 1) (pos.after c) cs with
    | ok ts => rfl
    | error e => rfl

/-- The step of cutting: a lexeme before a text that can be continued. -/
theorem scan_splice_cons {c : Char} {cs a b y : List Char} {l : Lexeme} {pos start : Pos}
    {later : List Token} (found : lexeme? c cs = some l)
    (ended : l.denotes = none → l.length < (c :: cs).length)
    (behind : start = (pos.after c).afterAll (cs.take (l.length - 1)))
    (cut : cs.drop (l.length - 1) = a ++ b) (apart : Apart y) (unquoted : isQuote c → c ∉ y)
    (continues : scan 0 start (a ++ y) = (scan 0 (start.afterAll a) y).map (later ++ ·)) :
    scan 0 pos (c :: (cs.take (l.length - 1) ++ a) ++ y) =
      (scan 0 (pos.afterAll (c :: (cs.take (l.length - 1) ++ a))) y).map
        (l.tokens pos ++ later ++ ·) := by
  have whole : cs = cs.take (l.length - 1) ++ a ++ b := by
    rw [List.append_assoc, ← cut, List.take_append_drop]
  have front : (cs.take (l.length - 1)).length = l.length - 1 := by
    have within := length_le_of_lexeme? found
    rw [List.length_cons] at within
    rw [List.length_take]
    omega
  have found' : lexeme? c (cs.take (l.length - 1) ++ a ++ y) = some l := by
    refine lexeme?_splice (y := b) apart unquoted (by rw [← whole]; exact found) ?_
      (by rw [← whole]; exact ended)
    rw [List.length_cons, List.length_append, front]
    omega
  have positions : pos.afterAll (c :: (cs.take (l.length - 1) ++ a)) = start.afterAll a := by
    rw [Pos.afterAll_cons, Pos.afterAll, List.foldl_append, behind]
    rfl
  rw [List.cons_append, scan_cons pos found', List.append_assoc, List.take_left' front,
    List.drop_left' front, ← behind, continues, positions]
  cases scan 0 (start.afterAll a) y with
  | error e => rfl
  | ok ts => exact congrArg Except.ok (List.append_assoc _ _ _).symm

/-- A text can be continued behind any of its tokens but the last. -/
theorem scan_splice {pos : Pos} {cs : List Char} {before after : List Token}
    (scanned : scan 0 pos cs = .ok (before ++ after)) (more : after ≠ []) :
    ∃ a b, cs = a ++ b ∧ ∀ y, Spaced y →
      scan 0 pos (a ++ y) = (scan 0 (pos.afterAll a) y).map (before ++ ·) := by
  induction size : cs.length using Nat.strongRecOn generalizing cs pos before with
  | ind k ih =>
    by_cases empty : before = []
    · subst empty
      refine ⟨[], cs, rfl, fun y _ => ?_⟩
      rw [List.nil_append, Pos.afterAll_nil]
      cases scan 0 pos y with
      | ok ts => rfl
      | error e => rfl
    -- The end of input is one token, so here the text goes on.
    have goesOn {pos : Pos} {cs : List Char} (scanned : scan 0 pos cs = .ok (before ++ after)) :
        cs ≠ [] := by
      rintro rfl
      have single : before ++ after = [⟨.eof, "", pos⟩] := by
        simpa [scan] using scanned.symm
      rcases List.append_eq_singleton_iff.1 single with ⟨none, -⟩ | ⟨-, none⟩
      · exact empty none
      · exact more none
    cases cs with
    | nil => exact absurd rfl (goesOn scanned)
    | cons c cs =>
      cases found : lexeme? c cs with
      | none => rw [scan, found] at scanned; cases scanned
      | some l =>
        have step := scan_cons pos found
        rw [scanned] at step
        cases rest : scan 0 ((pos.after c).afterAll (cs.take (l.length - 1)))
            (cs.drop (l.length - 1)) with
        | error e => rw [rest] at step; cases step
        | ok ts =>
          rw [rest] at step
          have shape : before ++ after = l.tokens pos ++ ts := Except.ok.inj step
          have shorter : (cs.drop (l.length - 1)).length < k := by
            rw [← size, List.length_drop, List.length_cons]
            omega
          have ended : l.denotes = none → l.length < (c :: cs).length := by
            intro skipped
            have same : ts = before ++ after := by
              rw [shape, Lexeme.tokens, skipped]
              rfl
            have left := List.length_pos_iff.2 (goesOn (rest.trans (congrArg _ same)))
            rw [List.length_drop] at left
            rw [List.length_cons]
            omega
          have parts : ∃ later, before = l.tokens pos ++ later ∧ ts = later ++ after := by
            unfold Lexeme.tokens at shape ⊢
            split at shape
            · exact ⟨before, rfl, shape.symm⟩
            · cases before with
              | nil => exact absurd rfl empty
              | cons t later =>
                obtain ⟨rfl, rfl⟩ := List.cons.inj shape
                exact ⟨later, rfl, rfl⟩
          obtain ⟨later, rfl, rfl⟩ := parts
          obtain ⟨a, b, cut, continues⟩ := ih _ shorter rest rfl
          refine ⟨c :: (cs.take (l.length - 1) ++ a), b, ?_, fun y spaced =>
            scan_splice_cons found ended rfl cut spaced.apart spaced.notMem (continues y spaced)⟩
          rw [List.cons_append, List.append_assoc, ← cut, List.take_append_drop]

end Lexer

end GotoBasic
