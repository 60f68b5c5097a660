import GotoBasic.Proofs.Token.Protected
import GotoBasic.Proofs.Token.Written

/-!
# What stretches of text denote

`Lexer.Denotes` says which token a stretch of text denotes, and `Lexer.Gap` which stretches denote
nothing: sequences of blanks and comments.  The lexical rules find a stretch that denotes what they
say (`Lexer.denotes_of_lexeme?`), and a stretch denotes one token at most (`Lexer.Denotes.unique`).
Where no rule applies, no stretch starts that denotes something or nothing
(`Lexer.stuck_of_lexeme?`).
-/

namespace GotoBasic.Lexer

open Decimal (isDigit)

/-- A stretch of text denotes a token of a kind and with a text.  A string stands between quotes,
the first of which is not bare anywhere between them; any other token is spelled out. -/
inductive Denotes : List Char → TokenKind × String → Prop
  | plain {x : TokenKind × String} (plain : Plain x) : Denotes x.2.toList x
  | string {q : Char} {body value : List Char} (quote : isQuote q) (closed : ∀ k, ¬ Bare q body k)
      (replaced : Unescapes body value) :
      Denotes (q :: (body ++ [q])) (.string, String.ofList value)

/-- A stretch of text before the text `behind` is a sequence of blanks and of comments, each with
the line feed that ends it.  Only the end of the text can end a comment without one. -/
inductive Gap : (stretch behind : List Char) → Prop
  | nil (y : List Char) : Gap [] y
  | blank {c : Char} {x y : List Char} (space : c = ' ' ∨ c = '\t' ∨ c = '\r') (more : Gap x y) :
      Gap (c :: x) y
  | comment {body x y : List Char} (oneLine : '\n' ∉ body) (more : Gap x y) :
      Gap ('/' :: '/' :: (body ++ '\n' :: x)) y
  | lastComment {body : List Char} (oneLine : '\n' ∉ body) : Gap ('/' :: '/' :: body) []

variable {c : Char} {cs w x y : List Char} {n : Nat} {t : TokenKind × String}

/-- What the rules find denotes what they say. -/
theorem denotes_of_lexeme? (found : lexeme? c cs = some ⟨some t, n⟩) :
    Denotes ((c :: cs).take n) t := by
  generalize rule : Lexeme.mk (some t) n = l at found
  cases finds_of_lexeme? found with
  | blank space => cases rule
  | comment slash second => cases rule
  | @spelled kind text front plain =>
    cases rule
    have spelled := Denotes.plain plain
    rw [← List.prefix_iff_eq_take.1 front]
    rwa [String.toList_ofList] at spelled
  | string quote found =>
    obtain ⟨m, ended, same⟩ := Option.map_eq_some_iff.1 found
    rw [← same] at rule
    cases rule
    have notBackslash := ne_backslash_of_isQuote quote
    obtain ⟨here, closed⟩ := bodyLength?_spec notBackslash ended
    have stretch : (c :: cs).take (m + 2) = c :: (cs.take m ++ [c]) := by
      rw [List.take_succ_cons, List.take_add_one, here]
      rfl
    rw [stretch]
    refine .string quote (fun k bare => ?_) (unescapes_unescape _)
    have below : k < m := by
      have inside := (List.getElem?_eq_some_iff.1 bare.here).1
      rw [List.length_take] at inside
      omega
    have bare' := bare.append (cs.drop m)
    rw [List.take_append_drop] at bare'
    exact closed k below bare'

/-- A stretch that denotes a token is one lexeme when it stands alone. -/
theorem Denotes.lexeme?_eq (denotes : Denotes w t) :
    ∃ c cs, w = c :: cs ∧ lexeme? c cs = some ⟨some t, w.length⟩ := by
  cases denotes with
  | plain plain =>
    obtain ⟨c, cs, shape, found⟩ := lexeme?_of_plain plain
    exact ⟨c, cs, shape, by rw [found, shape]; rfl⟩
  | @string q body value quote closed replaced =>
    refine ⟨q, body ++ [q], rfl, ?_⟩
    rw [lexeme?_of_isQuote quote, string?,
      bodyLength?_of_not_bare (ne_backslash_of_isQuote quote) closed, Option.map_some,
      List.take_left, replaced.eq_unescape]
    simp

/-- A stretch of text denotes one token at most. -/
theorem Denotes.unique {t' : TokenKind × String} (denotes : Denotes w t) (other : Denotes w t') :
    t = t' := by
  obtain ⟨c, cs, shape, found⟩ := denotes.lexeme?_eq
  obtain ⟨c', cs', shape', found'⟩ := other.lexeme?_eq
  rw [shape] at shape'
  cases shape'
  rw [found] at found'
  cases found'
  rfl

/-- A comment that a line feed ends takes the line feed with it. -/
theorem comment_feed (body : List Char) (oneLine : '\n' ∉ body) (r : List Char) :
    comment (body ++ '\n' :: r) = ⟨none, body.length + 1⟩ := by
  have run : (body ++ '\n' :: r).takeWhile (· != '\n') = body := by
    rw [List.takeWhile_append_of_pos fun c mem => by simpa using ne_of_mem_of_not_mem mem oneLine]
    simp
  simp [comment, run]

theorem comment_end (body : List Char) (oneLine : '\n' ∉ body) :
    comment body = ⟨none, body.length⟩ := by
  have run : body.takeWhile (· != '\n') = body :=
    List.takeWhile_eq_self_iff.2 fun c mem => by simpa using ne_of_mem_of_not_mem mem oneLine
  simp [comment, run]

/-- A text is one line, or has a first line with a line feed behind it. -/
theorem exists_line (cs : List Char) :
    ∃ body, '\n' ∉ body ∧ (cs = body ∨ ∃ r, cs = body ++ '\n' :: r) := by
  by_cases feed : '\n' ∈ cs
  · obtain ⟨body, r, shape, oneLine⟩ := List.eq_append_cons_of_mem feed
    exact ⟨body, oneLine, .inr ⟨r, shape⟩⟩
  · exact ⟨cs, feed, .inl rfl⟩

/-- What the rules skip continues a gap to the front. -/
theorem Gap.of_lexeme? (found : lexeme? c cs = some ⟨none, n⟩) (behind : cs.drop (n - 1) = x ++ y)
    (gap : Gap x y) : Gap ((c :: cs).take n ++ x) y := by
  generalize rule : Lexeme.mk none n = l at found
  cases finds_of_lexeme? found with
  | blank space =>
    cases rule
    refine .blank ?_ gap
    simpa [isSpace, or_assoc] using space
  | comment slash second =>
    obtain ⟨ds, rfl⟩ := List.head?_eq_some_iff.1 second
    subst slash
    obtain ⟨body, oneLine, rfl | ⟨r, rfl⟩⟩ := exists_line ds
    · have none := comment_end ('/' :: '/' :: ds) (by simpa using oneLine)
      rw [none] at rule
      cases rule
      have ended : x = [] ∧ y = [] := by
        rw [← List.append_eq_nil_iff, ← behind]
        simp
      rw [ended.1, ended.2, List.take_length, List.append_nil]
      exact .lastComment oneLine
    · have none := comment_feed ('/' :: '/' :: body) (by simpa using oneLine) r
      rw [List.cons_append, List.cons_append] at none
      rw [none] at rule
      cases rule
      have rest : r = x ++ y := by
        rw [← behind]
        simp [List.drop_append]
      have front : ('/' :: '/' :: (body ++ '\n' :: r)).take (('/' :: '/' :: body).length + 1) =
          '/' :: '/' :: (body ++ ['\n']) := by
        simp [List.take_append, List.take_of_length_le]
      rw [front, List.cons_append, List.cons_append, List.append_assoc]
      exact .comment oneLine gap
  | spelled front plain => cases rule
  | string quote found =>
    obtain ⟨m, ended, same⟩ := Option.map_eq_some_iff.1 found
    rw [← same] at rule
    cases rule

/-! ## Texts to which no rule applies -/

theorem ite_some_eq_none {α : Type} {p : Prop} [Decidable p] {a : α} {e : Option α} :
    (if p then some a else e) = none ↔ ¬ p ∧ e = none := by
  by_cases h : p <;> simp [h]

/-- A string is found if its quote stands anywhere behind it. -/
theorem string?_eq_none_iff {q : Char} {cs : List Char} (notBackslash : q ≠ '\\') :
    string? q cs = none ↔ q ∉ cs := by
  rw [string?, Option.map_eq_none_iff, bodyLength?, ← lastIndex?_eq_none_iff]
  cases bare : firstBare? q cs with
  | none => rfl
  | some n =>
    have here := List.mem_of_getElem? (bare_of_firstBare? notBackslash bare).1.here
    rw [lastIndex?_eq_none_iff]
    exact iff_of_false (Option.some_ne_none n) fun outside => outside here

/-- When no rule applies to a text. -/
theorem lexeme?_eq_none_iff :
    lexeme? c cs = none ↔
      ¬ isSpace c ∧ ¬ (c = '/' ∧ cs.head? = some '/') ∧ ¬ cs.head?.any (isOperatorPair c) ∧
        ¬ isOperatorChar c ∧ ¬ isDigit c ∧
      if isQuote c then c ∉ cs else
        ¬ (c = '#' ∧ (cs.head? = some 't' ∨ cs.head? = some 'f')) ∧ c ≠ '\n' ∧ c ≠ '\\' ∧
          ¬ isLetter c := by
  unfold lexeme?
  simp only [ite_some_eq_none]
  by_cases quote : isQuote c
  · rw [if_pos quote, if_pos quote, string?_eq_none_iff (ne_backslash_of_isQuote quote)]
  · rw [if_neg quote, if_neg quote]
    simp only [ite_some_eq_none, ne_eq, and_true]

/-- More text behind does not keep a rule from applying. -/
theorem lexeme?_eq_none_of_append (fails : lexeme? c (x ++ y) = none) :
    lexeme? c x = none := by
  rw [lexeme?_eq_none_iff] at fails ⊢
  obtain ⟨space, slashes, pair, operator, digit, rest⟩ := fails
  have near (p : Option Char → Prop) (no : ¬ p (x ++ y).head?) (empty : ¬ p none) :
      ¬ p x.head? := by
    cases x with
    | nil => exact empty
    | cons d x => exact no
  refine ⟨space, near (fun next => c = '/' ∧ next = some '/') slashes (by simp),
    near (fun next => next.any (isOperatorPair c)) pair (by simp), operator, digit, ?_⟩
  by_cases quote : isQuote c
  · rw [if_pos quote] at rest ⊢
    exact fun mem => rest (List.mem_append_left y mem)
  · rw [if_neg quote] at rest ⊢
    refine ⟨near (fun next => c = '#' ∧ (next = some 't' ∨ next = some 'f')) rest.1 (by simp), ?_⟩
    exact rest.2

/-- Nothing at the front of a text denotes a token or can be skipped. -/
def Stuck (cs : List Char) : Prop :=
  ∀ x y, cs = x ++ y → x ≠ [] → ¬ Gap x y ∧ ∀ t, ¬ Denotes x t

/-- Where no rule applies, nothing starts. -/
theorem stuck_of_lexeme? (fails : lexeme? c cs = none) : Stuck (c :: cs) := by
  intro x y shape nonempty
  obtain ⟨d, x, rfl⟩ := List.exists_cons_of_ne_nil nonempty
  rw [List.cons_append] at shape
  cases shape
  refine ⟨fun gap => ?_, fun t denotes => ?_⟩
  · cases gap with
    | blank space more => rcases space with rfl | rfl | rfl <;> cases fails
    | comment oneLine more => cases fails
    | lastComment oneLine => cases fails
  · obtain ⟨c', x', shape, found⟩ := denotes.lexeme?_eq
    cases shape
    rw [lexeme?_eq_none_of_append fails] at found
    cases found

end GotoBasic.Lexer
