import GotoBasic.Proofs.Parser.Run

/-!
# What parsers read

`Parser.Reads p R s` is the contract of a parser for the relation `R`.  If `p` succeeds on the
stream `s`, then what it passed derives its result.  If it fails, then the tokens before the one
it complains about can be completed to a list that derives something; in other words, it never
fails later than it could have.

The rule for sequences, `Reads.bind`, asks for the tokens that complete what the first parser
has read.  With it the contract of each production is the production itself, read from left to
right.
-/

namespace GotoBasic

namespace Grammar

/-- Some tokens can be written behind `u` that make it derive something, wherever they stand. -/
def Completable {α : Type} (R : List Token → α → Prop) (u : List Token) : Prop :=
  ∃ w : List (TokenKind × String), (∀ x ∈ w, Plain x) ∧
    ∀ ws : List Token, ws.map Token.spelling = w → ∃ a, R (u ++ ws) a

theorem Completable.of_derives {α : Type} {R : List Token → α → Prop} {u : List Token} {a : α}
    (derives : R u a) : Completable R u := by
  refine ⟨[], by simp, fun ws spelled => ⟨a, ?_⟩⟩
  rw [List.map_eq_nil_iff.1 spelled, List.append_nil]
  exact derives

/-- To complete what starts `R`, complete it for `R` and then go on to `S`. -/
theorem Completable.trans {α β : Type} {R : List Token → α → Prop} {S : List Token → β → Prop}
    {u : List Token} (first : Completable R u) {w : List (TokenKind × String)}
    (plain : ∀ x ∈ w, Plain x)
    (go : ∀ v a, R v a → ∀ ws : List Token, ws.map Token.spelling = w → ∃ b, S (v ++ ws) b) :
    Completable S u := by
  obtain ⟨w', plain', derives⟩ := first
  refine ⟨w' ++ w, fun x mem => (List.mem_append.1 mem).elim (plain' x) (plain x), ?_⟩
  intro ws spelled
  obtain ⟨vs, ws, rfl, spelled', spelled⟩ := List.map_eq_append_iff.1 spelled
  obtain ⟨a, ha⟩ := derives vs spelled'
  rw [← List.append_assoc]
  exact go (u ++ vs) a ha ws spelled

theorem Completable.mono {α β : Type} {R : List Token → α → Prop} {S : List Token → β → Prop}
    {u : List Token} (completable : Completable R u) (into : ∀ v a, R v a → ∃ b, S v b) :
    Completable S u := by
  refine completable.trans (w := []) (by simp) fun v a ha ws spelled => ?_
  rw [List.map_eq_nil_iff.1 spelled, List.append_nil]
  exact into v a ha

end Grammar

namespace Parser

open Grammar

variable {α β : Type} {p : Parser α} {f : α → Parser β} {s : TokenStream}
  {R : List Token → α → Prop} {S : List Token → β → Prop}

/-- What `p` passes derives its result, and what it passed when it failed can be completed. -/
def Reads (p : Parser α) (R : List Token → α → Prop) (s : TokenStream) : Prop :=
  match p s with
  | .ok a s' => ∃ u, s.pending = u ++ s'.pending ∧ s'.last = s.last ∧ R u a
  | .error e _ =>
    ∃ u v, s.pending = u ++ v ∧ e.token = v.headD s.last ∧ Completable R u

namespace Reads

/-! ## Using the contract -/

theorem of_ok {a : α} {s' : TokenStream} (reads : Reads p R s) (ok : p s = .ok a s') :
    ∃ u, s.pending = u ++ s'.pending ∧ s'.last = s.last ∧ R u a := by
  rw [Reads, ok] at reads
  exact reads

theorem of_error {e : ParseError} {s' : TokenStream} (reads : Reads p R s)
    (error : p s = .error e s') :
    ∃ u v, s.pending = u ++ v ∧ e.token = v.headD s.last ∧ Completable R u := by
  rw [Reads, error] at reads
  exact reads

/-! ## Rules -/

theorem mono {S : List Token → α → Prop} (reads : Reads p R s) (into : ∀ u a, R u a → S u a) :
    Reads p S s := by
  unfold Reads at reads ⊢
  cases result : p s with
  | ok a s' =>
    rw [result] at reads
    obtain ⟨u, read, last, derives⟩ := reads
    exact ⟨u, read, last, into u a derives⟩
  | error e s' =>
    rw [result] at reads
    obtain ⟨u, v, read, found, completable⟩ := reads
    exact ⟨u, v, read, found, completable.mono fun v a derives => ⟨a, into v a derives⟩⟩

theorem current_bind {f : Token → Parser β} (next : Reads (f s.current) S s) :
    Reads (current >>= f) S s := next

theorem pure {a : α} (derives : R [] a) : Reads (Pure.pure a) R s :=
  ⟨[], rfl, rfl, derives⟩

/-- A complaint about the token at which the parser started. -/
theorem refuse {e : ParseError} {s' : TokenStream} (error : p s = .error e s')
    (found : e.token = s.current) (completable : Completable R []) : Reads p R s := by
  unfold Reads
  rw [error]
  exact ⟨[], s.pending, rfl, found, completable⟩

theorem fail {w : Wanted} (completable : Completable R []) : Reads (Parser.fail w) R s :=
  ⟨[], s.pending, rfl, rfl, completable⟩

/-- A sequence reads what its parts read; the tokens `w` complete what the first part has read. -/
theorem bind (scanned : s.Scanned) (first : Reads p R s) (w : List (TokenKind × String))
    (plain : ∀ x ∈ w, Plain x)
    (go : ∀ v a, R v a → ∀ ws : List Token, ws.map Token.spelling = w → ∃ b, S (v ++ ws) b)
    (next : ∀ u a s', p s = .ok a s' → s'.Scanned → s.pending = u ++ s'.pending → R u a →
      Reads (f a) (fun v b => S (u ++ v) b) s') :
    Reads (p >>= f) S s := by
  unfold Reads
  cases result : p s with
  | error e s' =>
    rw [bind_apply_of_error result]
    obtain ⟨u, v, read, found, completable⟩ := first.of_error result
    exact ⟨u, v, read, found, completable.trans plain go⟩
  | ok a s' =>
    rw [bind_apply_of_ok result]
    obtain ⟨u, read, last, derives⟩ := first.of_ok result
    have second := next u a s' result (scanned.of_append read last) read derives
    unfold Reads at second
    cases result' : f a s' with
    | ok b s'' =>
      rw [result'] at second
      obtain ⟨v, read', last', derives'⟩ := second
      exact ⟨u ++ v, by rw [read, read', List.append_assoc], last'.trans last, derives'⟩
    | error e s'' =>
      rw [result'] at second
      obtain ⟨v, r, read', found, w', plain', completes⟩ := second
      refine ⟨u ++ v, r, by rw [read, read', List.append_assoc], by rw [found, last], w', plain',
        fun ws spelled => ?_⟩
      obtain ⟨b, hb⟩ := completes ws spelled
      exact ⟨b, by rw [List.append_assoc]; exact hb⟩

/-- A last step that only turns the result into another one. -/
theorem map {g : α → β} (scanned : s.Scanned) (first : Reads p R s)
    (into : ∀ u a, R u a → S u (g a)) : Reads (p >>= fun a => Pure.pure (g a)) S s := by
  refine bind scanned first [] (by simp) (fun v a ha ws spelled => ?_) fun u a s' _ _ _ ha => ?_
  · rw [List.map_eq_nil_iff.1 spelled, List.append_nil]
    exact ⟨g a, into v a ha⟩
  · exact pure (by rw [List.append_nil]; exact into u a ha)

/-- Passing a token that is not the end of input. -/
theorem advance_bind {f : Unit → Parser β} (scanned : s.Scanned)
    (inside : s.current.kind ≠ .eof)
    (next : Reads (f ()) (fun v b => S (s.current :: v) b) s.rest) :
    Reads (advance >>= f) S s := by
  have front := scanned.pending_eq inside
  unfold Reads at next ⊢
  rw [advance_bind_apply]
  cases result : f () s.rest with
  | ok b s' =>
    rw [result] at next
    obtain ⟨u, read, last, derives⟩ := next
    exact ⟨s.current :: u, by rw [front, read]; rfl, last, derives⟩
  | error e s' =>
    rw [result] at next
    obtain ⟨u, v, read, found, completable⟩ := next
    exact ⟨s.current :: u, v, by rw [front, read]; rfl, found, completable⟩

/-- Passing a symbol if it is there. -/
theorem accept_bind {symbol : String} {f : Bool → Parser β} (scanned : s.Scanned)
    (inside : s.current.isSymbol symbol → s.current.kind ≠ .eof)
    (present : s.current.isSymbol symbol →
      Reads (f true) (fun v b => S (s.current :: v) b) s.rest)
    (absent : s.current.isSymbol symbol = false → Reads (f false) S s) :
    Reads (accept symbol >>= f) S s := by
  by_cases found : s.current.isSymbol symbol
  · have apply : accept symbol s = .ok true s.rest := by rw [accept_apply, if_pos found]
    have same : (accept symbol >>= f) s = (advance >>= fun _ => f true) s :=
      bind_apply_of_ok apply
    unfold Reads
    rw [same]
    exact advance_bind scanned (inside found) (present found)
  · have apply : accept symbol s = .ok false s := by rw [accept_apply, if_neg found]
    unfold Reads
    rw [bind_apply_of_ok apply]
    exact absent (by simpa using found)

/-- A sequence that starts with one token. -/
theorem bind_token {Q : Token → α → Prop} (scanned : s.Scanned)
    (first : Reads p (fun u a => ∃ t, u = [t] ∧ Q t a) s) (w : List (TokenKind × String))
    (plain : ∀ x ∈ w, Plain x)
    (go : ∀ t a, Q t a → ∀ ws : List Token, ws.map Token.spelling = w → ∃ b, S (t :: ws) b)
    (next : ∀ t a s', s'.Scanned → t = s.current → Q t a →
      Reads (f a) (fun v b => S (t :: v) b) s') :
    Reads (p >>= f) S s := by
  refine bind scanned first w plain ?_ ?_
  · rintro v a ⟨t, rfl, fits⟩ ws spelled
    exact go t a fits ws spelled
  · rintro u a s' - scanned' read ⟨t, rfl, fits⟩
    exact next t a s' scanned' (by rw [TokenStream.current, read]; rfl) fits

/-! ## Terminals -/

/-- A mark or word that a parser asks for by its text. -/
theorem expect {symbol : String} {kind : TokenKind} {Q : Token → Prop}
    (plain : Plain (kind, symbol)) (scanned : s.Scanned)
    (fits : ∀ t : Token, t.WellFormed → t.isSymbol symbol → t.kind = kind ∧ Q t)
    (given : ∀ t : Token, t.kind = kind → t.text = symbol → Q t) :
    Reads (Parser.expect symbol) (fun u _ => ∃ t, u = [t] ∧ Q t) s := by
  unfold Reads
  rw [expect_apply]
  by_cases found : s.current.isSymbol symbol
  · rw [if_pos found]
    obtain ⟨same, token⟩ := fits _ scanned.current found
    refine ⟨[s.current], scanned.pending_eq ?_, rfl, s.current, rfl, token⟩
    rw [same]
    exact plain.2.2
  · rw [if_neg found]
    refine ⟨[], s.pending, rfl, rfl, [(kind, symbol)], by simpa using plain, fun ws spelled => ?_⟩
    obtain ⟨t, rfl, spelling⟩ := List.map_eq_singleton_iff.1 spelled
    injection spelling with same text
    exact ⟨(), t, rfl, given t same text⟩

theorem expect_word (scanned : s.Scanned) (k : Keyword) :
    Reads (Parser.expect k.spelling) (fun u _ => ∃ t, u = [t] ∧ Word k t) s :=
  expect (plain_word k) scanned
    (fun _ wf symbol => ⟨(wf.isSymbol_spelling k).1 symbol, (wf.isSymbol_spelling k).1 symbol⟩)
    fun _ same _ => same

theorem expect_operator (scanned : s.Scanned) {symbol : String}
    (mem : symbol ∈ operatorSpellings) :
    Reads (Parser.expect symbol) (fun u _ => ∃ t, u = [t] ∧ Operator symbol t) s :=
  expect (plain_operator mem) scanned
    (fun _ wf symbol => ⟨((wf.isSymbol_operator mem).1 symbol).1,
      (wf.isSymbol_operator mem).1 symbol⟩)
    fun _ same text => ⟨same, text⟩

end Reads

end Parser

end GotoBasic
