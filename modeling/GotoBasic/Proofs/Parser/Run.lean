import GotoBasic.Line.Parser
import GotoBasic.Proofs.Grammar

/-!
# Running parsers

Equations for the parts that all parsers are made of, and what these parts do on streams of
scanned tokens: a token other than the end of input is passed (`TokenStream.Scanned.pending_eq`),
and an integer token is read exactly if it is short enough (`Parser.integer_cases`).
-/

namespace GotoBasic

/-- The token that an error is about. -/
def ParseError.token : ParseError → Token
  | .expected _ t => t
  | .integerTooLong t => t
  | .malformedFloat t => t

/-- An error is where its token is. -/
theorem ParseError.pos_eq_token_pos (e : ParseError) : e.pos = e.token.pos := by
  cases e <;> rfl

namespace Parser

variable {α β : Type} {p : Parser α} {f : α → Parser β} {s s' : TokenStream} {a : α}
  {e : ParseError}

/-! ## Equations -/

@[simp] theorem pure_apply : (pure a : Parser α) s = .ok a s := rfl

@[simp] theorem throw_apply : (throw e : Parser α) s = .error e s := rfl

@[simp] theorem current_bind_apply {f : Token → Parser β} :
    (current >>= f) s = f s.current s := rfl

@[simp] theorem advance_apply : advance s = .ok () s.rest := rfl

@[simp] theorem advance_bind_apply {f : Unit → Parser β} : (advance >>= f) s = f () s.rest := rfl

@[simp] theorem fail_apply {w : Wanted} :
    (fail w : Parser α) s = .error (.expected w s.current) s := rfl

/-- A parser that succeeds hands on what it found and the tokens that are left. -/
theorem bind_apply_of_ok (ok : p s = .ok a s') : (p >>= f) s = f a s' := by
  change EStateM.bind p f s = _
  rw [EStateM.bind, ok]

/-- Where a parser fails, the sequence fails, and nothing is taken back. -/
theorem bind_apply_of_error (error : p s = .error e s') : (p >>= f) s = .error e s' := by
  change EStateM.bind p f s = _
  rw [EStateM.bind, error]

/-- A symbol is there and passed, or missed and not passed. -/
theorem expect_apply {symbol : String} :
    expect symbol s =
      if s.current.isSymbol symbol then .ok () s.rest
      else .error (.expected (.symbol symbol) s.current) s := by
  change (current >>= fun t => if t.isSymbol symbol then advance else fail (.symbol symbol)) s = _
  rw [current_bind_apply]
  split <;> rfl

/-- A symbol is passed if it is there; both are successes. -/
theorem accept_apply {symbol : String} :
    accept symbol s =
      if s.current.isSymbol symbol then .ok true s.rest else .ok false s := by
  unfold accept
  rw [current_bind_apply]
  split <;> rfl

/-- An identifier gives its text. -/
theorem identifier_apply :
    identifier s =
      if s.current.kind = .ident then .ok s.current.text s.rest
      else .error (.expected .identifier s.current) s := by
  unfold identifier
  rw [current_bind_apply]
  split <;> rfl

/-! ## What holds after a success -/

/-- If `p` succeeds on `s`, then its result and the stream it leaves are in `Q`. -/
def Ensures (p : Parser α) (Q : α → TokenStream → Prop) (s : TokenStream) : Prop :=
  ∀ a s', p s = .ok a s' → Q a s'

namespace Ensures

variable {Q : β → TokenStream → Prop} {Q' : α → TokenStream → Prop}

theorem pure (holds : Q' a s) : Ensures (Pure.pure a) Q' s := by
  rintro _ _ ⟨⟩
  exact holds

theorem fail {w : Wanted} : Ensures (Parser.fail w) Q' s := by
  rintro _ _ ⟨⟩

/-- What holds after a sequence holds after its second part, wherever the first one ends. -/
theorem bind (next : ∀ a s', p s = .ok a s' → Ensures (f a) Q s') :
    Ensures (p >>= f) Q s := by
  intro b s'' ok
  cases result : p s with
  | ok a s' =>
    rw [bind_apply_of_ok result] at ok
    exact next a s' result b s'' ok
  | error e s' =>
    rw [bind_apply_of_error result] at ok
    cases ok

end Ensures

end Parser

/-! ## Scanned streams -/

namespace TokenStream

@[simp] theorem current_cons (t : Token) (ts : List Token) (l : Token) :
    current ⟨t :: ts, l⟩ = t := rfl

@[simp] theorem current_nil (l : Token) : current ⟨[], l⟩ = l := rfl

@[simp] theorem rest_cons (t : Token) (ts : List Token) (l : Token) :
    rest ⟨t :: ts, l⟩ = ⟨ts, l⟩ := rfl

/-- A stream shows a token list up to the first end of input, whatever stands behind it. -/
theorem ofTokens_append_eof {u : List Token} {l : Token} (inside : ∀ t ∈ u, t.kind ≠ .eof)
    (final : l.kind = .eof) (us : List Token) : ofTokens (u ++ l :: us) = ⟨u, l⟩ := by
  have front (t : Token) (mem : t ∈ u) : (!t.isEof) = true := by simp [Token.isEof, inside t mem]
  have other : u.find? Token.isEof = none :=
    List.find?_eq_none.2 fun t mem => by simp [Token.isEof, inside t mem]
  unfold ofTokens
  rw [List.takeWhile_append_of_pos front, List.find?_append, other]
  simp [Token.isEof, final]

namespace Scanned

variable {s s' : TokenStream}

/-- Every token of a text is well-formed, the one that ends it included. -/
theorem current (scanned : s.Scanned) : s.current.WellFormed := by
  obtain ⟨pending, last⟩ := s
  cases pending with
  | nil => exact scanned.last.1
  | cons t ts => exact (scanned.pending t List.mem_cons_self).1

/-- A token other than the end of input is the first of the pending ones. -/
theorem pending_eq (scanned : s.Scanned) (inside : s.current.kind ≠ .eof) :
    s.pending = s.current :: s.rest.pending := by
  obtain ⟨pending, last⟩ := s
  cases pending with
  | nil => exact absurd scanned.last.2 inside
  | cons t ts => rfl

/-- Only the last token is the end of input. -/
theorem pending_eq_nil (scanned : s.Scanned) (final : s.current.kind = .eof) :
    s.pending = [] := by
  obtain ⟨pending, last⟩ := s
  cases pending with
  | nil => rfl
  | cons t ts => exact absurd final (scanned.pending t List.mem_cons_self).2

/-- The part of a scanned stream behind what has been read is scanned. -/
theorem of_append (scanned : s.Scanned) {u : List Token} (read : s.pending = u ++ s'.pending)
    (last : s'.last = s.last) : s'.Scanned := by
  refine ⟨fun t mem => scanned.pending t ?_, by rw [last]; exact scanned.last⟩
  rw [read]
  exact List.mem_append_right u mem

theorem rest (scanned : s.Scanned) : s.rest.Scanned :=
  ⟨fun t mem => scanned.pending t (List.mem_of_mem_tail mem), scanned.last⟩

/-- Identifiers and strings are never symbols, and of the other tokens of a text only a reserved
word has its spelling. -/
theorem isSymbol_spelling (scanned : s.Scanned) (k : Keyword) :
    s.current.isSymbol k.spelling ↔ Grammar.Word k s.current :=
  scanned.current.isSymbol_spelling k

/-- In a text only the operator itself has its text. -/
theorem isSymbol_operator (scanned : s.Scanned) {symbol : String}
    (mem : symbol ∈ operatorSpellings) :
    s.current.isSymbol symbol ↔ Grammar.Operator symbol s.current :=
  scanned.current.isSymbol_operator mem

end Scanned

end TokenStream

/-! ## Literals -/

namespace Grammar

/-- An integer token denotes what the reader of integers makes of its text. -/
theorem integer_iff {t : Token} {n : Int} (wf : t.WellFormed) (kind : t.kind = .int) :
    Integer t n ↔ Decimal.integer? t.text.toList = some n := by
  rw [Token.WellFormed, kind] at wf
  rw [Decimal.integer?_eq_of_digits wf.1 wf.2, String.length_toList]
  constructor
  · intro literal
    rw [if_pos literal.short, literal.value]
  · intro read
    split at read
    next short => exact ⟨kind, short, (Option.some.inj read).symm⟩
    · cases read

/-- A float token denotes what the reader of doubles makes of its text.  The point of a decimal
stands behind its first run of digits, so this is one double. -/
theorem double_iff {t : Token} {x : Binary64} (wf : t.WellFormed) (kind : t.kind = .float) :
    Double t x ↔ Binary64.ofText? t.text.toList = some x := by
  rw [Token.WellFormed, kind] at wf
  obtain ⟨whole, fraction, shape, nonempty, digits, digits'⟩ := wf
  rw [shape, Binary64.ofText?_eq_of_digits nonempty digits digits', Option.some_inj]
  constructor
  · intro literal
    obtain ⟨whole', fraction', shape', digits'', rfl⟩ := literal.value
    have front (w f : List Char) (ds : ∀ c ∈ w, Decimal.isDigit c) :
        (w ++ '.' :: f).takeWhile Decimal.isDigit = w := by
      rw [List.takeWhile_append_of_pos ds]
      simp [Decimal.isDigit]
    have same : whole ++ '.' :: fraction = whole' ++ '.' :: fraction' := shape.symm.trans shape'
    have whole_eq : whole = whole' := by
      rw [← front whole fraction digits, same, front whole' fraction' digits'']
    subst whole_eq
    have fraction_eq : fraction = fraction' := by simpa using same
    rw [fraction_eq]
  · rintro rfl
    exact ⟨kind, whole, fraction, shape, digits, rfl⟩

end Grammar

namespace Parser

open Grammar

/-- An integer token is read if it is short enough, and reported otherwise. -/
theorem integer_cases {t : Token} (wf : t.WellFormed) (kind : t.kind = .int) :
    (∃ n, Integer t n ∧ ∀ s, integer t s = .ok n s) ∨
      (∀ n, ¬ Integer t n) ∧ ∀ s, integer t s = .error (.integerTooLong t) s := by
  cases read : Decimal.integer? t.text.toList with
  | some n =>
    refine .inl ⟨n, (integer_iff wf kind).2 read, fun s => ?_⟩
    rw [integer, read]
    rfl
  | none =>
    refine .inr ⟨fun n literal => ?_, fun s => ?_⟩
    · rw [(integer_iff wf kind).1 literal] at read
      cases read
    · rw [integer, read]
      rfl

/-- Digits that denote a number are read as this number, and no token is passed. -/
theorem integer_apply_of_literal {t : Token} {n : Int} (wf : t.WellFormed) (literal : Integer t n)
    (s : TokenStream) : integer t s = .ok n s := by
  rw [integer, (integer_iff wf literal.kind).1 literal]
  rfl

theorem double_apply_of_literal {t : Token} {x : Binary64} (wf : t.WellFormed)
    (literal : Double t x) (s : TokenStream) : double t s = .ok x s := by
  rw [double, (double_iff wf literal.kind).1 literal]
  rfl

/-- Every float token is read. -/
theorem double_apply {t : Token} (wf : t.WellFormed) (kind : t.kind = .float) :
    ∃ x, Double t x ∧ ∀ s, double t s = .ok x s := by
  have spelled := wf
  rw [Token.WellFormed, kind] at spelled
  obtain ⟨whole, fraction, shape, -, digits, -⟩ := spelled
  have literal : Double t (.ofParts whole fraction) := ⟨kind, whole, fraction, shape, digits, rfl⟩
  exact ⟨_, literal, double_apply_of_literal wf literal⟩

end Parser

end GotoBasic
