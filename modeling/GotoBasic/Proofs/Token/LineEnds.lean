import GotoBasic.Proofs.Syntax.Recast
import GotoBasic.Proofs.Token.Denotes
import GotoBasic.Text.Lines

/-!
# Line ends of two characters

A line may end with a carriage return and a line feed.  Nothing but the line feed counts: without
its carriage returns such a text is scanned to the same tokens, of which only those of the line
feeds stand elsewhere, and only strings that run over a line end have other contents
(`Lexer.scan_dropReturns`).  A comment takes the carriage return with it, and what a backslash
protects in a string is the carriage return or the line feed, so every string keeps its end.
-/

namespace GotoBasic

namespace Text

/-- A text in which carriage returns stand only before line feeds. -/
inductive Paired : List Char → Prop
  | nil : Paired []
  | lineEnd {cs : List Char} (paired : Paired cs) : Paired ('\r' :: '\n' :: cs)
  | char {c : Char} {cs : List Char} (other : c ≠ '\r') (paired : Paired cs) : Paired (c :: cs)

/-- The text without its carriage returns. -/
def dropReturns (cs : List Char) : List Char := cs.filter (· != '\r')

variable {c : Char} {cs x y : List Char}

@[simp] theorem dropReturns_nil : dropReturns [] = [] := rfl

@[simp] theorem dropReturns_return (cs : List Char) :
    dropReturns ('\r' :: cs) = dropReturns cs := rfl

@[simp] theorem dropReturns_feed (cs : List Char) :
    dropReturns ('\n' :: cs) = '\n' :: dropReturns cs := rfl

theorem dropReturns_cons (other : c ≠ '\r') : dropReturns (c :: cs) = c :: dropReturns cs :=
  List.filter_cons_of_pos (by simpa using other)

@[simp] theorem dropReturns_append (x y : List Char) :
    dropReturns (x ++ y) = dropReturns x ++ dropReturns y := List.filter_append x y

/-- Of the characters only the carriage returns are dropped. -/
theorem mem_dropReturns : c ∈ dropReturns cs ↔ c ∈ cs ∧ c ≠ '\r' := by
  simp [dropReturns]

theorem dropReturns_eq_self (none : '\r' ∉ cs) : dropReturns cs = cs :=
  List.filter_eq_self.2 fun c mem => by simpa using ne_of_mem_of_not_mem mem none

/-- The front of a text without its carriage returns is its front without them. -/
theorem take_dropReturns (cs : List Char) (n : Nat) :
    (dropReturns cs).take (dropReturns (cs.take n)).length = dropReturns (cs.take n) := by
  have parts := dropReturns_append (cs.take n) (cs.drop n)
  rw [List.take_append_drop] at parts
  rw [parts, List.take_left]

/-- What is left behind the front is the rest without its carriage returns. -/
theorem drop_dropReturns (cs : List Char) (n : Nat) :
    (dropReturns cs).drop (dropReturns (cs.take n)).length = dropReturns (cs.drop n) := by
  have parts := dropReturns_append (cs.take n) (cs.drop n)
  rw [List.take_append_drop] at parts
  rw [parts, List.drop_left]

namespace Paired

/-- A carriage return has its line feed behind it. -/
theorem feed (paired : Paired ('\r' :: cs)) : ∃ r, cs = '\n' :: r ∧ Paired r := by
  cases paired with
  | lineEnd paired => exact ⟨_, rfl, paired⟩
  | char other paired => exact absurd rfl other

/-- Without its first character a text is still one whose carriage returns are followed by line
feeds. -/
theorem tail (paired : Paired (c :: cs)) : Paired cs := by
  cases paired with
  | lineEnd paired => exact .char (by decide) paired
  | char other paired => exact paired

/-- A text without carriage returns is such a text. -/
theorem of_notMem (none : '\r' ∉ cs) : Paired cs := by
  induction cs with
  | nil => exact .nil
  | cons c cs ih =>
    rw [List.mem_cons, not_or] at none
    exact .char (Ne.symm none.1) (ih none.2)

/-- A text can be cut anywhere but inside a line end. -/
theorem of_append (paired : Paired (x ++ y))
    (stop : x.getLast? = some '\r' → y.head? ≠ some '\n') : Paired x := by
  have shorter {c : Char} {x : List Char}
      (stop : (c :: x).getLast? = some '\r' → y.head? ≠ some '\n') :
      x.getLast? = some '\r' → y.head? ≠ some '\n' :=
    fun last => stop (by rw [List.getLast?_cons, last]; rfl)
  generalize whole : x ++ y = z at paired
  induction paired generalizing x with
  | nil =>
    rw [(List.append_eq_nil_iff.1 whole).1]
    exact .nil
  | lineEnd paired ih =>
    cases x with
    | nil => exact .nil
    | cons c x =>
      cases x with
      | nil =>
        simp only [List.cons_append, List.nil_append, List.cons.injEq] at whole
        rw [whole.1, whole.2] at stop
        exact absurd rfl (stop rfl)
      | cons d x =>
        simp only [List.cons_append, List.cons.injEq] at whole
        obtain ⟨rfl, rfl, whole⟩ := whole
        exact .lineEnd (ih (shorter (shorter stop)) whole)
  | char other paired ih =>
    cases x with
    | nil => exact .nil
    | cons c x =>
      simp only [List.cons_append, List.cons.injEq] at whole
      obtain ⟨rfl, whole⟩ := whole
      exact .char other (ih (shorter stop) whole)

/-- Two such texts in a row are such a text. -/
theorem append (first : Paired x) (second : Paired y) : Paired (x ++ y) := by
  induction first with
  | nil => exact second
  | lineEnd paired ih => exact .lineEnd ih
  | char other paired ih => exact .char other ih

theorem of_suffix (paired : Paired cs) (suffix : y <:+ cs) : Paired y := by
  obtain ⟨x, rfl⟩ := suffix
  induction x with
  | nil => exact paired
  | cons c x ih => exact ih paired.tail

/-- Without line feeds there are no carriage returns. -/
theorem notMem (paired : Paired cs) (oneLine : '\n' ∉ cs) : '\r' ∉ cs := by
  induction paired with
  | nil => exact List.not_mem_nil
  | lineEnd paired ih => simp at oneLine
  | char other paired ih =>
    simp only [List.mem_cons, not_or] at oneLine ⊢
    exact ⟨Ne.symm other, ih oneLine.2⟩

/-- The condition on the carriage returns, told by places in the text. -/
theorem of_getElem? (paired : ∀ n < cs.length, cs[n]? = some '\r' → cs[n + 1]? = some '\n') :
    Paired cs := by
  induction cs with
  | nil => exact .nil
  | cons c cs ih =>
    have later : Paired cs := ih fun n below => paired (n + 1) (Nat.succ_lt_succ below)
    by_cases carriage : c = '\r'
    · subst carriage
      have next := paired 0 (Nat.succ_pos _) rfl
      cases cs with
      | nil => cases next
      | cons d cs =>
        cases next
        exact .lineEnd later.tail
    · exact .char carriage later

/-- If every carriage return is part of a line end, to drop it is to make the line end a line feed.
-/
theorem unifyLineEnds_eq (paired : Paired cs) : unifyLineEnds cs = dropReturns cs := by
  induction paired with
  | nil => rfl
  | lineEnd paired ih => rw [unifyLineEnds, ih, dropReturns_return, dropReturns_feed]
  | @char c cs other paired ih => rw [unifyLineEnds, ih, dropReturns_cons other] <;> simp [other]

/-- The carriage return of a line end does not tell where the next line stands. -/
theorem afterAll_dropReturns (paired : Paired cs) (p : Pos) :
    p.afterAll (dropReturns cs) = p.afterAll cs := by
  induction paired generalizing p with
  | nil => rfl
  | lineEnd paired ih =>
    rw [dropReturns_return, dropReturns_feed, Pos.afterAll_cons, ih]
    rfl
  | char other paired ih => rw [dropReturns_cons other, Pos.afterAll_cons, ih, Pos.afterAll_cons]

/-- A run that line ends stop. -/
theorem takeWhile_dropReturns {p : Char → Bool} (paired : Paired cs) (carriage : p '\r' = false)
    (feed : p '\n' = false) : (dropReturns cs).takeWhile p = cs.takeWhile p := by
  induction paired with
  | nil => rfl
  | lineEnd paired ih => simp [carriage, feed]
  | char other paired ih =>
    rw [dropReturns_cons other, List.takeWhile_cons, List.takeWhile_cons, ih]

/-- A run of characters ends at the carriage return in one text and at its line feed in the other.
-/
theorem dropWhile_dropReturns {p : Char → Bool} (paired : Paired cs) (carriage : p '\r' = false)
    (feed : p '\n' = false) : (dropReturns cs).dropWhile p = dropReturns (cs.dropWhile p) := by
  induction paired with
  | nil => rfl
  | lineEnd paired ih => simp [carriage, feed]
  | @char c cs other paired ih =>
    rw [dropReturns_cons other, List.dropWhile_cons, List.dropWhile_cons, ih]
    split
    · rfl
    · exact (dropReturns_cons other).symm

/-- What stands next, unless it is a line end. -/
theorem next (paired : Paired cs) :
    (dropReturns cs).head? = cs.head? ∧ (dropReturns cs).take 1 = cs.take 1 ∨
      cs.head? = some '\r' ∧ (dropReturns cs).head? = some '\n' := by
  cases paired with
  | nil => exact .inl ⟨rfl, rfl⟩
  | lineEnd paired => exact .inr ⟨rfl, rfl⟩
  | char other paired =>
    rw [dropReturns_cons other]
    exact .inl ⟨rfl, rfl⟩

end Paired

end Text

namespace Lexer

open Decimal (isDigit)
open Text

variable {c q : Char} {cs rest : List Char} {l : Lexeme}

/-! ## Strings -/

section Strings

variable (notBackslash : q ≠ '\\') (notReturn : q ≠ '\r') (notFeed : q ≠ '\n')

include notReturn

/-- The last quote is where it was, without the carriage returns before it. -/
theorem lastIndex?_dropReturns (cs : List Char) :
    lastIndex? q (dropReturns cs) =
      (lastIndex? q cs).map fun n => (dropReturns (cs.take n)).length := by
  induction cs with
  | nil => rfl
  | cons c cs ih =>
    by_cases carriage : c = '\r'
    · subst carriage
      rw [dropReturns_return, ih, lastIndex?]
      cases lastIndex? q cs with
      | some n => rfl
      | none => simp [notReturn.symm]
    · rw [dropReturns_cons carriage, lastIndex?, lastIndex?, ih]
      cases lastIndex? q cs with
      | some n => simp [dropReturns_cons carriage]
      | none => by_cases same : c = q <;> simp [same]

include notBackslash notFeed

/-- A backslash in front of a line end protects the carriage return in one text and the line feed in
the other, and neither is a quote. -/
theorem firstBare?_dropReturns (paired : Paired cs) :
    firstBare? q (dropReturns cs) =
      (firstBare? q cs).map fun n => (dropReturns (cs.take n)).length := by
  induction size : cs.length using Nat.strongRecOn generalizing cs with
  | ind k ih =>
    cases paired with
    | nil => rfl
    | @lineEnd cs paired =>
      simp only [List.length_cons] at size
      rw [dropReturns_return, dropReturns_feed, firstBare?_cons notBackslash,
        firstBare?_cons notBackslash, firstBare?_cons notBackslash, ih _ (by omega) paired rfl]
      simp [notReturn.symm, notFeed.symm, Option.map_map, Function.comp_def]
    | @char c cs other paired =>
      simp only [List.length_cons] at size
      rw [dropReturns_cons other, firstBare?_cons notBackslash, firstBare?_cons notBackslash]
      by_cases backslash : c = '\\'
      · rw [if_pos backslash, if_pos backslash]
        subst backslash
        -- The carriage return or the line feed is what the backslash protects.
        cases paired with
        | nil => rfl
        | @lineEnd cs paired =>
          simp only [List.length_cons] at size
          simp only [dropReturns_return, dropReturns_feed, List.drop_succ_cons, List.drop_zero]
          rw [firstBare?_cons notBackslash, ih _ (by omega) paired rfl]
          simp [notFeed.symm, Option.map_map, Function.comp_def, dropReturns_cons]
        | @char d cs other' paired =>
          simp only [List.length_cons] at size
          simp only [dropReturns_cons other', List.drop_succ_cons, List.drop_zero]
          rw [ih _ (by omega) paired rfl]
          simp [Option.map_map, Function.comp_def, dropReturns_cons, other']
      · rw [if_neg backslash, if_neg backslash]
        by_cases same : c = q
        · simp [same]
        · rw [if_neg same, if_neg same, ih _ (by omega) paired rfl]
          simp [Option.map_map, Function.comp_def, dropReturns_cons other]

/-- A string ends at the same quote. -/
theorem bodyLength?_dropReturns (paired : Paired cs) :
    bodyLength? q (dropReturns cs) =
      (bodyLength? q cs).map fun n => (dropReturns (cs.take n)).length := by
  unfold bodyLength?
  rw [firstBare?_dropReturns notBackslash notReturn notFeed paired,
    lastIndex?_dropReturns notReturn]
  cases firstBare? q cs with
  | some n => rfl
  | none => rfl

end Strings

theorem unescape_cons (plain : c ≠ '\\') : unescape (c :: cs) = c :: unescape cs := by
  cases cs with
  | nil => rfl
  | cons d cs => rw [unescape, if_neg plain]

/-- A protected carriage return is one all the same. -/
theorem unescape_dropReturns (paired : Paired cs) :
    unescape (dropReturns cs) = dropReturns (unescape cs) := by
  induction size : cs.length using Nat.strongRecOn generalizing cs with
  | ind k ih =>
    cases paired with
    | nil => rfl
    | @lineEnd cs paired =>
      simp only [List.length_cons] at size
      rw [dropReturns_return, dropReturns_feed, unescape_cons (by decide),
        unescape_cons (by decide), unescape_cons (by decide), ih _ (by omega) paired rfl,
        dropReturns_return, dropReturns_feed]
    | @char c cs other paired =>
      simp only [List.length_cons] at size
      rw [dropReturns_cons other]
      by_cases backslash : c = '\\'
      · subst backslash
        cases paired with
        | nil => rfl
        | @lineEnd cs paired =>
          simp only [List.length_cons] at size
          rw [dropReturns_return, dropReturns_feed, unescape, if_pos rfl, unescape, if_pos rfl,
            unescape_cons (by decide), ih _ (by omega) paired rfl, dropReturns_return,
            dropReturns_feed]
        | @char d cs other' paired =>
          simp only [List.length_cons] at size
          rw [dropReturns_cons other', unescape, if_pos rfl, ih _ (by omega) paired rfl, unescape,
            if_pos rfl, dropReturns_cons other']
      · rw [unescape_cons backslash, unescape_cons backslash, ih _ (by omega) paired rfl,
          dropReturns_cons other]

/-- A match in a text without its carriage returns: only a string denotes something else. -/
def Lexeme.dropReturns (cs : List Char) (l : Lexeme) : Lexeme where
  denotes := l.denotes.map fun x =>
    if x.1 = .string then (x.1, String.ofList (Text.dropReturns x.2.toList)) else x
  length := (Text.dropReturns (cs.take l.length)).length

/-- A string has the same body without carriage returns, and where it ends no line end is cut in
two. -/
theorem string?_dropReturns (quote : isQuote q) (paired : Paired cs) :
    string? q (dropReturns cs) = (string? q cs).map (Lexeme.dropReturns (q :: cs)) ∧
      ∀ l, string? q cs = some l → Paired ((q :: cs).take l.length) := by
  have notBackslash := ne_backslash_of_isQuote quote
  have notReturn : q ≠ '\r' := by rintro rfl; cases quote
  have notFeed : q ≠ '\n' := by rintro rfl; cases quote
  unfold string?
  rw [bodyLength?_dropReturns notBackslash notReturn notFeed paired]
  cases ended : bodyLength? q cs with
  | none => exact ⟨rfl, fun l found => nomatch found⟩
  | some n =>
    have here := (bodyLength?_spec notBackslash ended).1
    have body : Paired (cs.take n) := by
      refine Paired.of_append (y := cs.drop n) ?_ ?_
      · rw [List.take_append_drop]
        exact paired
      · rw [List.head?_drop, here]
        exact fun _ same => notFeed (Option.some.inj same)
    have whole : (q :: cs).take (n + 2) = q :: (cs.take n ++ [q]) := by
      rw [List.take_succ_cons, List.take_add_one, here]
      rfl
    constructor
    · simp only [Option.map_some, Option.some_inj, Lexeme.dropReturns, whole, take_dropReturns,
        unescape_dropReturns body, dropReturns_cons notReturn, dropReturns_append, if_pos,
        String.toList_ofList]
      simp
    · rintro l ⟨⟩
      rw [whole]
      exact .char notReturn (body.append (.char notReturn .nil))

/-! ## Other rules -/

/-- A number holds no carriage return.  It looks at the character behind its digits, and neither
half of a line end is a point. -/
theorem number_dropReturns (paired : Paired cs) : number (dropReturns cs) = number cs := by
  have behind : Paired (cs.dropWhile isDigit) := paired.of_suffix (List.dropWhile_suffix isDigit)
  unfold number
  rw [paired.takeWhile_dropReturns rfl rfl, paired.dropWhile_dropReturns rfl rfl]
  generalize cs.dropWhile isDigit = point at behind
  cases behind with
  | nil => rfl
  | lineEnd paired => rfl
  | @char d r other paired =>
    rw [dropReturns_cons other]
    by_cases point : d = '.'
    · subst point
      have fraction := paired.takeWhile_dropReturns (p := isDigit) rfl rfl
      simp only [fraction]
    · split
      next shape => exact absurd (List.cons.inj shape).1 point
      · split
        next shape => exact absurd (List.cons.inj shape).1 point
        · rfl

/-- A word ends where the line does, if not before. -/
theorem word_dropReturns (paired : Paired cs) : word (dropReturns cs) = word cs := by
  unfold word
  rw [paired.takeWhile_dropReturns rfl rfl]

/-- A rule that reads no further than its line finds the same. -/
theorem lexeme?_dropReturns_of_plain (other : c ≠ '\r') (paired : Paired rest)
    (noComment : ¬ (c = '/' ∧ rest.head? = some '/')) (noQuote : isQuote c = false) :
    lexeme? c (dropReturns rest) = lexeme? c rest := by
  have number := number_dropReturns (Paired.char other paired)
  have word := word_dropReturns (Paired.char other paired)
  rw [dropReturns_cons other] at number word
  rcases paired.next with ⟨head, take⟩ | ⟨head, head'⟩
  · unfold lexeme?
    simp only [head, take, number, word, noQuote, if_neg noComment, Bool.false_eq_true, if_false]
  · have pair (d : Char) (control : d = '\r' ∨ d = '\n') : isOperatorPair c d = false := by
      rcases control with rfl | rfl <;> simp [isOperatorPair]
    unfold lexeme?
    simp [head, head', number, word, noQuote, pair]

/-- A comment takes the whole line end with it. -/
theorem comment_dropReturns (paired : Paired cs) :
    comment (dropReturns cs) = (comment cs).dropReturns cs ∧
      Paired (cs.take (comment cs).length) := by
  obtain ⟨body, oneLine, shape | ⟨r, rfl⟩⟩ := exists_line cs
  · subst shape
    have none := paired.notMem oneLine
    rw [comment_end cs oneLine, Lexeme.dropReturns, dropReturns_eq_self none,
      comment_end cs oneLine, List.take_length, dropReturns_eq_self none]
    exact ⟨rfl, paired⟩
  · have oneLine' : '\n' ∉ dropReturns body := fun mem => oneLine (mem_dropReturns.1 mem).1
    have front : (body ++ '\n' :: r).take (body.length + 1) = body ++ ['\n'] := by
      simp [List.take_append, List.take_of_length_le]
    rw [comment_feed body oneLine, dropReturns_append, dropReturns_feed, comment_feed _ oneLine',
      Lexeme.dropReturns, front]
    refine ⟨by simp, Paired.of_append (y := r) ?_ ?_⟩
    · rw [List.append_assoc]
      exact paired
    · simp

theorem lexeme?_of_comment (slash : c = '/') (second : cs.head? = some '/') :
    lexeme? c cs = some (comment (c :: cs)) := by
  subst slash
  unfold lexeme?
  dsimp only
  rw [if_neg (by decide), if_pos ⟨rfl, second⟩]

/-- A token that is no string has the text that stands there. -/
theorem prefix_of_lexeme? {kind : TokenKind} {text : List Char} (noQuote : isQuote c = false)
    (found : lexeme? c cs = some (.spelled kind text)) : text <+: c :: cs := by
  generalize rule : Lexeme.spelled kind text = l at found
  cases finds_of_lexeme? found with
  | blank space => cases rule
  | comment slash second => cases rule
  | spelled front plain =>
    simp only [Lexeme.spelled, Lexeme.mk.injEq, Option.some_inj, Prod.mk.injEq,
      String.ofList_inj] at rule
    rw [rule.1.2]
    exact front
  | string quote found =>
    rw [noQuote] at quote
    cases quote

/-- The match at the front of a text is the match without carriage returns, and it holds whole line
ends. -/
theorem keeps_of_lexeme? (other : c ≠ '\r') (paired : Paired rest)
    (found : lexeme? c rest = some l) :
    lexeme? c (dropReturns rest) = some (l.dropReturns (c :: rest)) ∧
      Paired ((c :: rest).take l.length) := by
  by_cases slashes : c = '/' ∧ rest.head? = some '/'
  · obtain ⟨slash, second⟩ := slashes
    rw [lexeme?_of_comment slash second] at found
    cases found
    have second' : (dropReturns rest).head? = some '/' := by
      rcases paired.next with ⟨head, -⟩ | ⟨head, -⟩
      · rw [head, second]
      · rw [head] at second
        cases second
    obtain ⟨same, whole⟩ := comment_dropReturns (Paired.char other paired)
    rw [dropReturns_cons other] at same
    rw [lexeme?_of_comment slash second', same]
    exact ⟨rfl, whole⟩
  by_cases quote : isQuote c
  · obtain ⟨same, whole⟩ := string?_dropReturns quote paired
    rw [lexeme?_of_isQuote quote] at found ⊢
    rw [same, found]
    exact ⟨rfl, whole l found⟩
  have noQuote := eq_false_of_ne_true quote
  have found' := lexeme?_dropReturns_of_plain other paired slashes noQuote
  rw [found] at found'
  cases finds_of_lexeme? found with
  | blank space =>
    refine ⟨?_, .char other .nil⟩
    rw [found', Lexeme.dropReturns, List.take_succ_cons, dropReturns_cons other]
    rfl
  | comment slash second => exact absurd ⟨slash, second⟩ slashes
  | @spelled kind text front plain =>
    have front' := prefix_of_lexeme? noQuote found'
    rw [← dropReturns_cons other] at front'
    have none : '\r' ∉ text := fun mem => (mem_dropReturns.1 (front'.subset mem)).2 rfl
    have stretch : (c :: rest).take text.length = text := (List.prefix_iff_eq_take.1 front).symm
    constructor
    · rw [found', Lexeme.dropReturns, Lexeme.spelled]
      dsimp only
      rw [stretch, dropReturns_eq_self none, Option.map_some, if_neg plain.2.1]
    · rw [Lexeme.spelled]
      dsimp only
      rw [stretch]
      exact .of_notMem none
  | string quote' found => exact absurd quote' quote

/-- Where no rule applies, none applies without carriage returns, so both texts fail at the same
place. -/
theorem lexeme?_dropReturns_eq_none (other : c ≠ '\r') (paired : Paired rest)
    (fails : lexeme? c rest = none) : lexeme? c (dropReturns rest) = none := by
  by_cases quote : isQuote c
  · rw [lexeme?_of_isQuote quote] at fails ⊢
    rw [(string?_dropReturns quote paired).1, fails]
    rfl
  · rw [lexeme?_dropReturns_of_plain other paired ?_ (eq_false_of_ne_true quote), fails]
    rintro ⟨slash, second⟩
    rw [lexeme?_of_comment slash second] at fails
    cases fails

end Lexer

/-! ## Scanning -/

/-- Line feeds stand nowhere. -/
def Recast.feedless : Recast := ⟨id, id, fun _ => Pos.start⟩

/-- Line feeds stand nowhere, and there are no carriage returns in strings. -/
def Recast.returnless : Recast :=
  ⟨fun s => String.ofList (Text.dropReturns s.toList), id, fun _ => Pos.start⟩

namespace Lexer

open Text

variable {cs : List Char}

/-- A lexeme denotes the same token, but for what is dropped from a string and for the column of a
line feed. -/
theorem tokens_dropReturns (l : Lexeme) (cs : List Char) (pos : Pos) :
    ((l.dropReturns cs).tokens pos).map (Token.recast .feedless) =
      (l.tokens pos).map (Token.recast .returnless) := by
  unfold Lexeme.tokens Lexeme.dropReturns
  cases l.denotes with
  | none => rfl
  | some x =>
    obtain ⟨kind, text⟩ := x
    cases kind <;> rfl

/-- A line feed is a token of its own. -/
theorem scan_feed (pos : Pos) (cs : List Char) :
    scan 0 pos ('\n' :: cs) = (scan 0 (pos.after '\n') cs).map ([⟨.newline, "\n", pos⟩] ++ ·) := by
  have found : lexeme? '\n' cs = some (.spelled .newline ['\n']) := by cases cs <;> rfl
  exact scan_cons pos found

theorem toOption_map_append (f : Token → Token) (ts : List Token)
    (r : Except LexError (List Token)) :
    (r.map (ts ++ ·)).toOption.map (List.map f) =
      (r.toOption.map (List.map f)).map (ts.map f ++ ·) := by
  cases r with
  | ok ts' => exact congrArg some List.map_append
  | error e => rfl

/-- Without its carriage returns a text is scanned to the same tokens but for the places of line
feeds and the contents of strings, or cannot be scanned either. -/
theorem scan_dropReturns (paired : Paired cs) (pos : Pos) :
    (scan 0 pos (dropReturns cs)).toOption.map (List.map (Token.recast .feedless)) =
      (scan 0 pos cs).toOption.map (List.map (Token.recast .returnless)) := by
  induction size : cs.length using Nat.strongRecOn generalizing cs pos with
  | ind k ih =>
    cases paired with
    | nil => rfl
    | @lineEnd cs paired =>
      simp only [List.length_cons] at size
      -- The line feed stands one column further, and what is behind it where it stood.
      have passed : scan 0 pos ('\r' :: '\n' :: cs) = scan 0 (pos.after '\r') ('\n' :: cs) := rfl
      have place : (pos.after '\r').after '\n' = pos.after '\n' := rfl
      rw [dropReturns_return, dropReturns_feed, passed, scan_feed, scan_feed, place,
        toOption_map_append, toOption_map_append, ih _ (by omega) paired _ rfl]
      rfl
    | @char c cs other paired =>
      simp only [List.length_cons] at size
      rw [dropReturns_cons other]
      cases found : lexeme? c cs with
      | none =>
        rw [scan, scan, found, lexeme?_dropReturns_eq_none other paired found]
        rfl
      | some l =>
        obtain ⟨found', whole⟩ := keeps_of_lexeme? other paired found
        obtain ⟨n, long⟩ : ∃ n, l.length = n + 1 :=
          ⟨l.length - 1, (Nat.sub_add_cancel (length_pos_of_lexeme? found)).symm⟩
        rw [long, List.take_succ_cons] at whole
        have long' : (l.dropReturns (c :: cs)).length = (dropReturns (cs.take n)).length + 1 := by
          rw [Lexeme.dropReturns, long, List.take_succ_cons, dropReturns_cons other]
          rfl
        rw [scan_cons pos found, scan_cons pos found', toOption_map_append, toOption_map_append,
          tokens_dropReturns, long, long', Nat.add_sub_cancel, Nat.add_sub_cancel,
          take_dropReturns, drop_dropReturns, whole.tail.afterAll_dropReturns]
        rw [ih _ (by rw [List.length_drop]; omega) (paired.of_suffix (List.drop_suffix n cs)) _ rfl]

end Lexer

end GotoBasic
