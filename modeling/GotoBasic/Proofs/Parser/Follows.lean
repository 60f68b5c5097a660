import GotoBasic.Proofs.Parser.Walk

/-!
# Walks that follow a parser of streams

On a list with an end of input a walk has no need of what sets it apart from a parser of streams: it
halts, stays up to the end of input, and does what the parser does with its bounds (`Walk.Follows`).
There is one rule for each way to put walks together.
-/

namespace GotoBasic.Walk

/-! ## Lists with an end of input -/

/-- A token list with its first end of input, which is not spelled as a parenthesis. -/
structure Tape where
  inside : List Token
  last : Token
  behind : List Token
  noEof : ∀ t ∈ inside, t.kind ≠ .eof
  final : last.kind = .eof
  noParenthesis : last.text ≠ "("

namespace Tape

variable (x : Tape) {i : Nat}

def tokens : List Token := x.inside ++ x.last :: x.behind

/-- What a parser of streams sees from an index on. -/
def stream (i : Nat) : TokenStream := ⟨x.inside.drop i, x.last⟩

/-- The token at an index up to the end of input. -/
def token (i : Nat) : Token := (x.stream i).current

theorem getElem?_tokens (within : i ≤ x.inside.length) : x.tokens[i]? = some (x.token i) := by
  unfold tokens token stream TokenStream.current
  rcases Nat.lt_or_eq_of_le within with less | rfl
  · rw [List.getElem?_append_left less, List.drop_eq_getElem_cons less,
      List.getElem?_eq_getElem less]
    rfl
  · rw [List.getElem?_append_right (Nat.le_refl _), Nat.sub_self, List.drop_length]
    rfl

theorem token_mem (less : i < x.inside.length) : x.token i ∈ x.inside := by
  unfold token stream TokenStream.current
  rw [List.drop_eq_getElem_cons less]
  exact List.getElem_mem less

/-- Only before the end of input there are other tokens. -/
theorem lt_of_kind_ne (inside : (x.token i).kind ≠ .eof) : i < x.inside.length := by
  apply Nat.lt_of_not_le
  intro past
  apply inside
  unfold token stream TokenStream.current
  rw [List.drop_eq_nil_of_le past]
  exact x.final

theorem mem_of_kind_ne (inside : (x.token i).kind ≠ .eof) : x.token i ∈ x.inside :=
  x.token_mem (x.lt_of_kind_ne inside)

theorem rest_stream (i : Nat) : (x.stream i).rest = x.stream (i + 1) := by
  unfold stream TokenStream.rest
  rw [List.tail_drop]

/-- Where a token of the kind of the end of input stands, nothing is left but the last token. -/
theorem drop_eq_nil_of_eof (eof : (x.token i).kind = .eof) : x.inside.drop i = [] := by
  apply List.drop_eq_nil_of_le
  apply Nat.le_of_not_lt
  intro less
  exact x.noEof _ (x.token_mem less) eof

/-- At the end of input nothing is left to be passed. -/
theorem stream_succ_of_eof (eof : (x.token i).kind = .eof) : x.stream (i + 1) = x.stream i := by
  have rest := x.drop_eq_nil_of_eof eof
  unfold stream
  rw [← List.tail_drop, rest, List.tail_nil]

/-- The end of input opens no parenthesis. -/
theorem kind_ne_of_parenthesis (opens : (x.token i).isSymbol "(") : (x.token i).kind ≠ .eof := by
  intro eof
  have here : x.token i = x.last := by
    unfold token stream TokenStream.current
    rw [x.drop_eq_nil_of_eof eof]
    rfl
  rw [here] at opens
  unfold Token.isSymbol at opens
  simp only [Bool.and_eq_true, beq_iff_eq] at opens
  exact x.noParenthesis opens.1.1

/-- The reason of an error is in the token that it is about. -/
def Explains : ParseError → Prop
  | .expected _ t => ∃ i ≤ x.inside.length, t = x.token i
  | .integerTooLong t => t ∈ x.inside ∧ t.kind = .int ∧ Decimal.integer? t.text.toList = none
  | .malformedFloat t => t ∈ x.inside ∧ t.kind = .float ∧ Binary64.ofText? t.text.toList = none

end Tape

/-- What a walk stops for where a parser of streams fails. -/
def Stop.of : ParseError → Stop
  | .malformedFloat t => .notNumber t
  | e => .refused e

variable {α β : Type} {x : Tape} {w : Walk α} {f : α → Walk β} {p : Parser α} {g : α → Parser β}
  {a : α} {r : Except Stop β} {stop : Stop} {i j j' k k' : Nat}

/-! ## Halting -/

/-- From the index `i` on, the walk halts at the index `j` with the answer `r`.  The largest index
before does not matter. -/
def Halts (w : Walk α) (i : Nat) (r : Except Stop α) (j : Nat) : Prop :=
  ∀ m, i ≤ m → w ⟨i, m⟩ = some (r, ⟨j, max m j⟩)

namespace Halts

/-- A walk that answers where it is. -/
theorem of_still {r : Except Stop α} (still : ∀ m, w ⟨i, m⟩ = some (r, ⟨i, m⟩)) :
    Halts w i r i := by
  intro m start
  rw [still, Nat.max_eq_left start]

theorem bind (first : Halts w i (.ok a) j) (next : Halts (f a) j r j') (above : j ≤ j') :
    Halts (w >>= f) i r j' := by
  intro m start
  rw [bind_apply_of_ok (first m start), next _ (Nat.le_max_right m j), Nat.max_assoc,
    Nat.max_eq_right above]

theorem bind_of_error (error : Halts w i (.error stop) j) : Halts (w >>= f) i (.error stop) j :=
  fun m start => bind_apply_of_error (error m start)

theorem current_bind {f : Token → Walk β} (within : i ≤ x.inside.length)
    (next : Halts (f (x.token i)) i r j) : Halts (current x.tokens >>= f) i r j := by
  intro m start
  rw [current_bind_apply (x.getElem?_tokens within)]
  exact next m start

end Halts

/-- From the index `i` on, the walk `w` halts and does what the parser `p` of streams does.  It
stays up to the end of input, and after a success it is at the index `k` or behind. -/
structure Follows (x : Tape) (w : Walk α) (p : Parser α) (i k : Nat) : Prop where
  ok : ∀ {a s}, p (x.stream i) = .ok a s →
    ∃ j, s = x.stream j ∧ i ≤ j ∧ k ≤ j ∧ j ≤ x.inside.length ∧ Halts w i (.ok a) j
  error : ∀ {e s}, p (x.stream i) = .error e s → x.Explains e ∧
    ∃ j, s = x.stream j ∧ i ≤ j ∧ j ≤ x.inside.length ∧ Halts w i (.error (Stop.of e)) j

namespace Follows

/-! ## Rules -/

theorem mono (holds : Follows x w p i k) (le : k' ≤ k) : Follows x w p i k' := by
  refine ⟨fun result => ?_, holds.error⟩
  obtain ⟨j, left, above, progress, halts⟩ := holds.ok result
  exact ⟨j, left, above, Nat.le_trans le progress, halts⟩

/-- Only what the parser does on this stream matters. -/
theorem congr {q : Parser α} (same : q (x.stream i) = p (x.stream i))
    (holds : Follows x w p i k) : Follows x w q i k := by
  constructor
  · intro a s result
    exact holds.ok (same ▸ result)
  · intro e s result
    exact holds.error (same ▸ result)

theorem pure (within : i ≤ x.inside.length) (a : α) :
    Follows x (Pure.pure a) (Pure.pure a) i i := by
  refine ⟨fun result => ?_, fun result => nomatch result⟩
  cases result
  exact ⟨i, rfl, Nat.le_refl i, Nat.le_refl i, within, .of_still fun _ => rfl⟩

theorem bind (first : Follows x w p i k)
    (next : ∀ a j, i ≤ j → k ≤ j → j ≤ x.inside.length → Follows x (f a) (g a) j k') :
    Follows x (w >>= f) (p >>= g) i k' := by
  cases begun : p (x.stream i) with
  | ok a s =>
    obtain ⟨j, rfl, above, progress, within, halts⟩ := first.ok begun
    have later := next a j above progress within
    constructor
    · intro b s result
      rw [Parser.bind_apply_of_ok begun] at result
      obtain ⟨j', left, above', progress', within', halts'⟩ := later.ok result
      exact ⟨j', left, Nat.le_trans above above', progress', within', halts.bind halts' above'⟩
    · intro e s result
      rw [Parser.bind_apply_of_ok begun] at result
      obtain ⟨explains, j', left, above', within', halts'⟩ := later.error result
      exact ⟨explains, j', left, Nat.le_trans above above', within', halts.bind halts' above'⟩
  | error e s =>
    obtain ⟨explains, j, left, above, within, halts⟩ := first.error begun
    constructor
    · intro b s' result
      rw [Parser.bind_apply_of_error begun] at result
      cases result
    · intro e' s' result
      rw [Parser.bind_apply_of_error begun] at result
      cases result
      exact ⟨explains, j, left, above, within, halts.bind_of_error⟩

/-- The result of the last part is put into a value. -/
theorem bind_pure {h : α → β} (first : Follows x w p i k) :
    Follows x (w >>= fun a => Pure.pure (h a)) (p >>= fun a => Pure.pure (h a)) i k :=
  first.bind fun a _ _ progress within => (pure within (h a)).mono progress

theorem current_bind {f : Token → Walk β} {g : Token → Parser β} (within : i ≤ x.inside.length)
    (next : Follows x (f (x.token i)) (g (x.token i)) i k) :
    Follows x (current x.tokens >>= f) (Parser.current >>= g) i k := by
  constructor
  · intro b s result
    obtain ⟨j, left, above, progress, within', halts⟩ := next.ok result
    exact ⟨j, left, above, progress, within', .current_bind within halts⟩
  · intro e s result
    obtain ⟨explains, j, left, above, within', halts⟩ := next.error result
    exact ⟨explains, j, left, above, within', .current_bind within halts⟩

/-- A token other than the end of input is passed. -/
theorem advance_of_ne (inside : (x.token i).kind ≠ .eof) :
    Follows x (advance x.tokens) Parser.advance i (i + 1) := by
  have less := x.lt_of_kind_ne inside
  refine ⟨fun result => ?_, fun result => nomatch result⟩
  rw [Parser.advance_apply, x.rest_stream] at result
  cases result
  refine ⟨i + 1, rfl, Nat.le_succ i, Nat.le_refl _, less, fun m start => ?_⟩
  exact advance_apply (x.getElem?_tokens (Nat.le_of_lt less)) inside

theorem advance (within : i ≤ x.inside.length) :
    Follows x (advance x.tokens) Parser.advance i i := by
  by_cases eof : (x.token i).kind = .eof
  · refine ⟨fun result => ?_, fun result => nomatch result⟩
    rw [Parser.advance_apply, x.rest_stream, x.stream_succ_of_eof eof] at result
    cases result
    refine ⟨i, rfl, Nat.le_refl i, Nat.le_refl i, within, .of_still fun m => ?_⟩
    exact advance_apply_of_eof (x.getElem?_tokens within) eof
  · exact (advance_of_ne eof).mono (Nat.le_succ i)

/-- Both refuse what they have come to, and stay there. -/
theorem refused (e : ParseError) (within : i ≤ x.inside.length) (explains : x.Explains e) :
    Follows x (throw (Stop.of e) : Walk α) (throw e) i k := by
  refine ⟨fun result => (nomatch result), fun result => ?_⟩
  cases result
  exact ⟨explains, i, rfl, Nat.le_refl i, within, .of_still fun _ => rfl⟩

theorem fail (within : i ≤ x.inside.length) {wanted : Wanted} :
    Follows x (fail x.tokens wanted : Walk α) (Parser.fail wanted) i k :=
  current_bind within (refused (.expected _ _) within ⟨i, within, rfl⟩)

theorem expect (within : i ≤ x.inside.length) {s : String} :
    Follows x (expect x.tokens s) (Parser.expect s) i i := by
  refine current_bind within ?_
  split
  · exact advance within
  · exact fail within

theorem expect_of_ne (inside : (x.token i).kind ≠ .eof) {s : String} :
    Follows x (Walk.expect x.tokens s) (Parser.expect s) i (i + 1) := by
  have within := Nat.le_of_lt (x.lt_of_kind_ne inside)
  refine current_bind within ?_
  split
  · exact advance_of_ne inside
  · exact fail within

theorem accept (within : i ≤ x.inside.length) {s : String} :
    Follows x (accept x.tokens s) (Parser.accept s) i i := by
  refine current_bind within ?_
  split
  · exact (advance within).bind_pure
  · exact pure within false

theorem identifier (within : i ≤ x.inside.length) :
    Follows x (identifier x.tokens) Parser.identifier i i := by
  refine current_bind within ?_
  split
  · exact (advance within).bind_pure
  · exact fail within

/-- The value of an integer token is read after the token has been passed. -/
theorem integer (within : j ≤ x.inside.length) (kind : (x.token i).kind = .int) :
    Follows x (integer (x.token i)) (Parser.integer (x.token i)) j j := by
  unfold Walk.integer Parser.integer
  cases read : Decimal.integer? (x.token i).text.toList with
  | some n => exact pure within n
  | none => exact refused (.integerTooLong _) within ⟨x.mem_of_kind_ne (by simp [kind]), kind, read⟩

theorem double (within : j ≤ x.inside.length) (kind : (x.token i).kind = .float) :
    Follows x (double (x.token i)) (Parser.double (x.token i)) j j := by
  unfold Walk.double Parser.double
  cases read : Binary64.ofText? (x.token i).text.toList with
  | some n => exact pure within n
  | none => exact refused (.malformedFloat _) within ⟨x.mem_of_kind_ne (by simp [kind]), kind, read⟩

end Follows

end GotoBasic.Walk
