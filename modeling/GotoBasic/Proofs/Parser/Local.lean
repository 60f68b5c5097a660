import GotoBasic.Proofs.Parser.Lines

/-!
# Parsers look one token ahead

What a parser does depends on the tokens that it passes and on the one behind them, and on
nothing else.  `Parser.Local d P s` says this of a family `P` of parsers that differ in their
bounds: whatever `P` does on the stream `s`, it does on every stream that starts like `s` up to
the token at which the parser stops, be it that it succeeds there or that it complains.  The
bounds have to exceed the length of the stream by `d`; every token that has been passed raises
this distance by one.
-/

namespace GotoBasic.Parser

open Grammar

variable {α β : Type} {P Q : Nat → Parser α} {F : Nat → α → Parser β} {d : Nat} {s : TokenStream}

/-- What the parsers `P` do on `s` they do on all streams that agree with `s` up to the token at
which they stop. -/
structure Local (d : Nat) (P : Nat → Parser α) (s : TokenStream) : Prop where
  ok : ∀ {n a s'}, s.pending.length + d ≤ n → P n s = .ok a s' →
    ∃ u, s.pending = u ++ s'.pending ∧ s'.last = s.last ∧
      ∀ m v l, (u ++ v).length + d ≤ m → v.headD l = s'.current → P m ⟨u ++ v, l⟩ = .ok a ⟨v, l⟩
  error : ∀ {n e s'}, s.pending.length + d ≤ n → P n s = .error e s' →
    ∃ u r, s.pending = u ++ r ∧ e.token = r.headD s.last ∧
      ∀ m v l, (u ++ v).length + d ≤ m → v.headD l = e.token →
        ∃ t, P m ⟨u ++ v, l⟩ = .error e t

namespace Local

/-! ## Rules for bounds -/

/-- Only bounds matter that exceed the length of a stream by `d`. -/
theorem change {d' : Nat} (holds : Local d P s) (f : Nat → Nat)
    (below : ∀ k n, k + d' ≤ n → k + d ≤ f n) (same : ∀ n, d' ≤ n → Q n = P (f n)) :
    Local d' Q s := by
  refine ⟨fun {n a s'} enough result => ?_, fun {n e s'} enough result => ?_⟩
  · rw [same n (by omega)] at result
    obtain ⟨u, read, last, agrees⟩ := holds.ok (below _ n enough) result
    refine ⟨u, read, last, fun m v l enough agree => ?_⟩
    rw [same m (by omega)]
    exact agrees (f m) v l (below _ m enough) agree
  · rw [same n (by omega)] at result
    obtain ⟨u, r, read, found, agrees⟩ := holds.error (below _ n enough) result
    refine ⟨u, r, read, found, fun m v l enough agree => ?_⟩
    rw [same m (by omega)]
    exact agrees (f m) v l (below _ m enough) agree

/-- A bound that is large enough may be larger. -/
theorem mono {d' : Nat} (holds : Local d P s) (le : d ≤ d') : Local d' P s :=
  holds.change id (fun k n enough => by simp only [id]; omega) fun _ _ => rfl

/-- Parsers may be exchanged for others that are the same for large bounds. -/
theorem congr (holds : Local d P s) (same : ∀ n, d ≤ n → Q n = P n) : Local d Q s :=
  holds.change id (fun _ _ enough => enough) same

/-- A parser that hands on its bound less one needs one more. -/
theorem succ (holds : Local d (fun n => P (n + 1)) s) : Local (d + 1) P s := by
  refine holds.change (· - 1) (fun k n enough => by omega) fun n enough => ?_
  rw [Nat.sub_add_cancel (by omega)]

theorem pred (holds : Local (d + 1) P s) : Local d (fun n => P (n + 1)) s :=
  holds.change (· + 1) (fun k n enough => by omega) fun _ _ => rfl

/-! ## Rules for sequences -/

/-- What looks at no token is local. -/
theorem of_const {p : Parser α} {a : α} (const : ∀ s, p s = .ok a s) :
    Local d (fun _ => p) s := by
  refine ⟨fun {n a s'} _ result => ?_, fun {n e s'} _ result => ?_⟩
  · rw [const s] at result
    cases result
    exact ⟨[], rfl, rfl, fun m v l _ _ => const _⟩
  · rw [const s] at result
    cases result

theorem pure {a : α} : Local d (fun _ => Pure.pure a) s := of_const fun _ => rfl

/-- A complaint about the token at which the parser started, whatever stands behind it. -/
theorem refuse {e : ParseError} (error : ∀ n t, ∃ t', P n t = .error e t')
    (found : e.token = s.current) : Local d P s := by
  refine ⟨fun {n a s'} _ result => ?_, fun {n e s'} _ result => ?_⟩
  · obtain ⟨t, refused⟩ := error n s
    rw [refused] at result
    cases result
  · obtain ⟨t, refused⟩ := error n s
    rw [refused] at result
    cases result
    exact ⟨[], s.pending, rfl, found, fun m v l _ _ => error m _⟩

/-- Streams that agree where a parser stops agree at their first token. -/
theorem current_eq {u v r : List Token} {l : Token} (read : s.pending = u ++ r)
    (same : v.headD l = r.headD s.last) : TokenStream.current ⟨u ++ v, l⟩ = s.current := by
  unfold TokenStream.current
  rw [read]
  cases u with
  | nil => exact same
  | cons t u => rfl

theorem current_bind {F : Nat → Token → Parser β} (next : Local d (fun n => F n s.current) s) :
    Local d (fun n => current >>= F n) s := by
  refine ⟨fun {n a s'} enough result => ?_, fun {n e s'} enough result => ?_⟩
  · obtain ⟨u, read, last, same⟩ := next.ok enough result
    refine ⟨u, read, last, fun m v l enough agree => ?_⟩
    rw [current_bind_apply, current_eq read (by rw [agree, TokenStream.current, last])]
    exact same m v l enough agree
  · obtain ⟨u, r, read, found, same⟩ := next.error enough result
    refine ⟨u, r, read, found, fun m v l enough agree => ?_⟩
    rw [current_bind_apply, current_eq read (by rw [agree, found])]
    exact same m v l enough agree

/-- Refusing looks at the next token, the one that is named. -/
theorem fail {w : Wanted} : Local d (fun _ => (Parser.fail w : Parser α)) s := by
  refine ⟨fun {n a s'} _ result => (nomatch result), fun {n e s'} _ result => ?_⟩
  cases result
  refine ⟨[], s.pending, rfl, rfl, fun m v l _ agree => ⟨⟨v, l⟩, ?_⟩⟩
  change EStateM.Result.error (ParseError.expected w (v.headD l)) _ = _
  rw [agree]
  rfl

/-- Passing a token brings the bounds one closer to the length of the stream, so what follows has
one more to spare. -/
theorem advance_bind {F : Nat → Unit → Parser β} (scanned : s.Scanned)
    (inside : s.current.kind ≠ .eof) (next : Local (d + 1) (fun n => F n ()) s.rest) :
    Local d (fun n => advance >>= F n) s := by
  have front := scanned.pending_eq inside
  have below {n : Nat} (enough : s.pending.length + d ≤ n) :
      s.rest.pending.length + (d + 1) ≤ n := by
    rw [front, List.length_cons] at enough
    omega
  refine ⟨fun {n a s'} enough result => ?_, fun {n e s'} enough result => ?_⟩
  · obtain ⟨u, read, last, same⟩ := next.ok (below enough) result
    refine ⟨s.current :: u, by rw [front, read]; rfl, last, fun m v l enough agree => ?_⟩
    simp only [List.cons_append, List.length_cons] at enough
    exact same m v l (by omega) agree
  · obtain ⟨u, r, read, found, same⟩ := next.error (below enough) result
    refine ⟨s.current :: u, r, by rw [front, read]; rfl, found, fun m v l enough agree => ?_⟩
    simp only [List.cons_append, List.length_cons] at enough
    exact same m v l (by omega) agree

/-- The rule for sequences: what the first parser passes is in front of what the second one passes,
and adds to the distance that its bounds have. -/
theorem bind (scanned : s.Scanned) (first : Local d P s)
    (next : ∀ n u a s', P n s = .ok a s' → s'.Scanned → s.pending = u ++ s'.pending →
      Local (d + u.length) (fun n => F n a) s') :
    Local d (fun n => P n >>= F n) s := by
  -- A stream that agrees where the second part stops agrees where the first part does.
  have both {n : Nat} {a : α} {s' : TokenStream} (enough : s.pending.length + d ≤ n)
      (result : P n s = .ok a s') : ∃ u, s.pending = u ++ s'.pending ∧ s'.last = s.last ∧
        s'.pending.length + (d + u.length) ≤ n ∧ Local (d + u.length) (fun n => F n a) s' ∧
        ∀ m w v r l, (u ++ w ++ v).length + d ≤ m → s'.pending = w ++ r →
          v.headD l = r.headD s'.last → (w ++ v).length + (d + u.length) ≤ m ∧
            (P m >>= F m) ⟨u ++ w ++ v, l⟩ = F m a ⟨w ++ v, l⟩ := by
    obtain ⟨u, read, last, same⟩ := first.ok enough result
    have second := next n u a s' result (scanned.of_append read last) read
    refine ⟨u, read, last, ?_, second, fun m w v r l enough read' agree => ?_⟩
    · rw [read, List.length_append] at enough
      omega
    · rw [List.append_assoc] at enough ⊢
      refine ⟨?_, bind_apply_of_ok (same m (w ++ v) l enough (current_eq read' agree))⟩
      rw [List.length_append] at enough
      omega
  refine ⟨fun {n b s''} enough result => ?_, fun {n e s''} enough result => ?_⟩
  · cases result₁ : P n s with
    | error e s' =>
      rw [bind_apply_of_error result₁] at result
      cases result
    | ok a s' =>
      rw [bind_apply_of_ok result₁] at result
      obtain ⟨u, read, last, enough', second, go⟩ := both enough result₁
      obtain ⟨w, read', last', same⟩ := second.ok enough' result
      refine ⟨u ++ w, by rw [read, read', List.append_assoc], last'.trans last, ?_⟩
      intro m v l enough agree
      obtain ⟨below, apply⟩ :=
        go m w v _ l enough read' (by rw [agree, TokenStream.current, last'])
      rw [apply]
      exact same m v l below agree
  · cases result₁ : P n s with
    | error e s' =>
      rw [bind_apply_of_error result₁] at result
      cases result
      obtain ⟨u, r, read, found, same⟩ := first.error enough result₁
      refine ⟨u, r, read, found, fun m v l enough agree => ?_⟩
      obtain ⟨t, refused⟩ := same m v l enough agree
      exact ⟨t, bind_apply_of_error refused⟩
    | ok a s' =>
      rw [bind_apply_of_ok result₁] at result
      obtain ⟨u, read, last, enough', second, go⟩ := both enough result₁
      obtain ⟨w, r, read', found, same⟩ := second.error enough' result
      refine ⟨u ++ w, r, by rw [read, read', List.append_assoc], by rw [found, last], ?_⟩
      intro m v l enough agree
      obtain ⟨below, apply⟩ := go m w v r l enough read' (by rw [agree, found])
      rw [apply]
      exact same m v l below agree

/-- A last step that only turns the result into another one. -/
theorem map {g : α → β} (scanned : s.Scanned) (first : Local d P s) :
    Local d (fun n => P n >>= fun a => Pure.pure (g a)) s :=
  bind scanned first fun _ _ _ _ _ _ _ => pure

/-! ## Terminals -/

/-- Neither the end of input nor any other token without text is a symbol. -/
theorem inside_of_isSymbol {symbol : String} (scanned : s.Scanned) (nonempty : symbol ≠ "")
    (found : s.current.isSymbol symbol) : s.current.kind ≠ .eof := by
  intro final
  have wf : s.current.WellFormed := scanned.current
  rw [Token.WellFormed, final] at wf
  simp only [Token.isSymbol, Bool.and_eq_true, beq_iff_eq] at found
  exact nonempty (found.1.1.symm.trans wf)

/-- Where the symbol is missing, the token that is looked at is the one that is named. -/
theorem expect_bind {symbol : String} {F : Nat → Unit → Parser β} (scanned : s.Scanned)
    (nonempty : symbol ≠ "")
    (next : s.current.isSymbol symbol → Local (d + 1) (fun n => F n ()) s.rest) :
    Local d (fun n => expect symbol >>= F n) s := by
  have looks : Local d (fun n => current >>= fun t =>
      if t.isSymbol symbol then advance >>= F n else Parser.fail (.symbol symbol)) s := by
    refine current_bind ?_
    by_cases found : s.current.isSymbol symbol
    · simp only [if_pos found]
      exact advance_bind scanned (inside_of_isSymbol scanned nonempty found) (next found)
    · simp only [if_neg found]
      exact fail
  refine looks.congr fun n _ => ?_
  funext t
  rw [current_bind_apply]
  by_cases found : t.current.isSymbol symbol
  · rw [if_pos found]
    exact bind_apply_of_ok (by rw [expect_apply, if_pos found])
  · rw [if_neg found]
    exact bind_apply_of_error (by rw [expect_apply, if_neg found])

/-- Trying a symbol looks at one token and passes it or not. -/
theorem accept_bind {symbol : String} {F : Nat → Bool → Parser β} (scanned : s.Scanned)
    (nonempty : symbol ≠ "")
    (present : s.current.isSymbol symbol → Local (d + 1) (fun n => F n true) s.rest)
    (absent : Local d (fun n => F n false) s) : Local d (fun n => accept symbol >>= F n) s := by
  have looks : Local d (fun n => current >>= fun t =>
      if t.isSymbol symbol then advance >>= fun _ => F n true else F n false) s := by
    refine current_bind ?_
    by_cases found : s.current.isSymbol symbol
    · simp only [if_pos found]
      exact advance_bind scanned (inside_of_isSymbol scanned nonempty found) (present found)
    · simp only [if_neg found]
      exact absent
  refine looks.congr fun n _ => ?_
  funext t
  rw [current_bind_apply]
  by_cases found : t.current.isSymbol symbol
  · rw [if_pos found]
    exact bind_apply_of_ok (by rw [accept_apply, if_pos found])
  · rw [if_neg found]
    exact bind_apply_of_ok (by rw [accept_apply, if_neg found])

theorem identifier (scanned : s.Scanned) : Local d (fun _ => Parser.identifier) s := by
  refine current_bind (F := fun _ t => if t.kind = .ident then do advance; return t.text
    else Parser.fail .identifier) ?_
  by_cases name : s.current.kind = .ident
  · simp only [if_pos name]
    exact advance_bind scanned (by rw [name]; decide) pure
  · simp only [if_neg name]
    exact fail

/-- A number that is read as soon as it has been passed. -/
theorem integer_bind {g : Int → β} (scanned : s.Scanned) (kind : s.current.kind = .int) :
    Local d (fun _ => do advance; return g (← integer s.current)) s := by
  rcases integer_cases scanned.current kind with ⟨n, -, apply⟩ | ⟨-, apply⟩
  · refine advance_bind scanned (by rw [kind]; decide) ?_
    exact map scanned.rest (of_const apply)
  · refine refuse (e := .integerTooLong s.current) (fun _ t => ⟨t.rest, ?_⟩) rfl
    rw [advance_bind_apply]
    exact bind_apply_of_error (apply t.rest)

end Local

/-! ## Expressions -/

section Chains

variable {tier : BinaryOp → Bool} {O : Nat → Parser Expr} {k : Nat}
  (operands : ∀ {s : TokenStream}, s.Scanned → s.pending.length ≤ k → Local 1 O s)

include operands

/-- The number `n - c` of links that a chain may still get exceeds the number of tokens. -/
theorem chainFrom_local {c : Nat} (left : Expr) (scanned : s.Scanned)
    (short : s.pending.length ≤ k) :
    Local (c + 1) (fun n => chainFrom tier (O n) (n - c) left) s := by
  induction size : s.pending.length using Nat.strongRecOn generalizing s c left with
  | ind j ih =>
    have step : Local (c + 1) (fun n => chainFrom tier (O n) (n - (c + 1) + 1) left) s := by
      simp only [chainFrom]
      refine Local.current_bind ?_
      cases found : s.current.binaryOp? tier with
      | none => exact Local.pure
      | some op =>
        have kind : s.current.kind = .op := by
          unfold Token.binaryOp? at found
          dsimp only at found
          split at found
          next fits => exact fits.1
          · cases found
        have inside : s.current.kind ≠ .eof := by rw [kind]; decide
        have front := scanned.pending_eq inside
        rw [front, List.length_cons] at size short
        refine Local.advance_bind scanned inside ?_
        refine Local.bind scanned.rest ((operands scanned.rest (by omega)).mono (by omega)) ?_
        intro n u right s' _ scanned' read
        have size' : s.rest.pending.length = u.length + s'.pending.length := by
          rw [read, List.length_append]
        exact (ih s'.pending.length (by omega) _ scanned' (by omega) rfl).mono (by omega)
    refine step.congr fun n enough => ?_
    obtain ⟨m, rfl⟩ : ∃ m, n = m + (c + 1) := ⟨n - (c + 1), by omega⟩
    rw [show m + (c + 1) - c = m + 1 by omega, show m + (c + 1) - (c + 1) = m by omega]

/-- A chain looks behind its last operand for one more operator, and no farther. -/
theorem chain_local (scanned : s.Scanned) (short : s.pending.length ≤ k) :
    Local 1 (fun n => chain tier n (O n)) s := by
  refine Local.bind scanned (operands scanned short) fun n u left s' _ scanned' read => ?_
  have size : s.pending.length = u.length + s'.pending.length := by rw [read, List.length_append]
  have links : Local (0 + 1) (fun n => chainFrom tier (O n) (n - 0) left) s' :=
    chainFrom_local operands left scanned' (by omega)
  exact links.mono (by omega)

end Chains

theorem exprOf_local {O : Nat → Parser Expr} {k : Nat}
    (operands : ∀ {s : TokenStream}, s.Scanned → s.pending.length ≤ k → Local 1 O s)
    (scanned : s.Scanned) (short : s.pending.length ≤ k) :
    Local 1 (fun n => exprOf n (O n)) s :=
  chain_local (fun scanned short => chain_local operands scanned short) scanned short

/-- The first token decides, and only a group goes on behind it. -/
theorem primary_local {I : Nat → Parser Expr} (scanned : s.Scanned)
    (inners : s.current.isSymbol "(" → Local (d + 1) I s.rest) :
    Local d (fun n => primary (I n)) s := by
  have literal {e : Expr} (inside : s.current.kind ≠ .eof) :
      Local d (fun _ => do advance; return e) s :=
    Local.advance_bind scanned inside Local.pure
  have group : Local d (fun n => if s.current.isSymbol "(" then do
        advance
        let e ← I n
        expect ")"
        return e
      else fail .expression) s := by
    by_cases found : s.current.isSymbol "("
    · simp only [if_pos found]
      refine Local.advance_bind scanned
        (Local.inside_of_isSymbol scanned (by decide) found) ?_
      refine Local.bind scanned.rest (inners found) fun n u e s' _ scanned' _ => ?_
      exact Local.expect_bind scanned' (by decide) fun _ => Local.pure
    · simp only [if_neg found]
      exact Local.fail
  unfold primary
  refine Local.current_bind ?_
  cases kind : s.current.kind with
  | int => exact Local.integer_bind scanned kind
  | float =>
    obtain ⟨x, -, apply⟩ := double_apply scanned.current kind
    refine Local.advance_bind scanned (by rw [kind]; decide) ?_
    exact Local.map scanned.rest (Local.of_const apply)
  | string => exact literal (by rw [kind]; decide)
  | bool => exact literal (by rw [kind]; decide)
  | ident => exact literal (by rw [kind]; decide)
  | _ => exact group

/-- By induction on the length of the stream, since a sign is passed before the next operand is
read. -/
theorem unary_local (scanned : s.Scanned) : Local 1 unary s := by
  induction size : s.pending.length using Nat.strongRecOn generalizing s with
  | ind j ih =>
    have shorter {s' : TokenStream} (inside : s.current.kind ≠ .eof)
        (short : s'.pending.length ≤ s.rest.pending.length) : s'.pending.length < j := by
      rw [← size, scanned.pending_eq inside, List.length_cons]
      omega
    refine Local.succ ?_
    unfold unary
    refine Local.current_bind ?_
    cases found : s.current.unaryOp? with
    | some op =>
      have inside : s.current.kind ≠ .eof := by
        rw [(unaryOp?_eq_some_iff.1 found).2.1]
        decide
      refine Local.advance_bind scanned inside ?_
      exact Local.map scanned.rest (ih _ (shorter inside (Nat.le_refl _)) scanned.rest rfl)
    | none =>
      refine primary_local scanned fun found => ?_
      have inside := Local.inside_of_isSymbol scanned (by decide) found
      exact exprOf_local (k := s.rest.pending.length)
        (fun scanned' short => ih _ (shorter inside short) scanned' rfl) scanned.rest
        (Nat.le_refl _)

theorem expr_local (scanned : s.Scanned) : Local 1 expr s :=
  exprOf_local (fun scanned _ => unary_local scanned) scanned (Nat.le_refl _)

/-! ## Statements -/

/-- A target is one token. -/
theorem labelRef_local (scanned : s.Scanned) : Local d (fun _ => labelRef) s := by
  unfold labelRef
  refine Local.current_bind ?_
  cases kind : s.current.kind with
  | int => exact Local.integer_bind scanned kind
  | ident => exact Local.advance_bind scanned (by rw [kind]; decide) Local.pure
  | _ => exact Local.fail

/-- A statement that starts with a word, a condition and `THEN`. -/
theorem guarded_local {F : Nat → Expr → Parser Stmt} (scanned : s.Scanned) (k : Keyword)
    (next : ∀ u c s', s'.Scanned → s.pending = u ++ s'.pending → u ≠ [] →
      Local 1 (fun n => F n c) s') :
    Local 0 (fun n => do expect k.spelling; let c ← expr (n + 1); expect "THEN"; F n c) s := by
  refine Local.expect_bind scanned (by cases k <;> decide) fun found => ?_
  have front := scanned.pending_eq
    (Local.inside_of_isSymbol scanned (by cases k <;> decide) found)
  refine Local.bind scanned.rest ((expr_local scanned.rest).pred.mono (by omega)) ?_
  intro n u c s' _ scanned' read
  refine Local.expect_bind scanned' (by decide) fun found' => ?_
  have front' := scanned'.pending_eq (Local.inside_of_isSymbol scanned' (by decide) found')
  have passed : s.pending = (s.current :: u ++ [s'.current]) ++ s'.rest.pending := by
    rw [front, read, front']
    simp
  exact (next _ c s'.rest scanned'.rest passed (by simp)).mono (by omega)

/-- By induction on the length of the stream: the reserved word is passed before an inner statement
is read.  A conditional looks behind its first branch for `ELSE`, which is still one token. -/
theorem stmt_local (scanned : s.Scanned) : Local 1 stmt s := by
  induction size : s.pending.length using Nat.strongRecOn generalizing s with
  | ind j ih =>
    have shorter {u : List Token} {s' : TokenStream} (scanned' : s'.Scanned)
        (read : s.pending = u ++ s'.pending) (passed : u ≠ []) : Local 1 stmt s' := by
      have positive := List.length_pos_iff.2 passed
      refine ih s'.pending.length ?_ scanned' rfl
      rw [← size, read, List.length_append]
      omega
    refine Local.succ ?_
    unfold stmt
    refine Local.current_bind ?_
    cases kind : s.current.kind with
    | keyword k =>
      have inside : s.current.kind ≠ .eof := by rw [kind]; simp
      cases k with
      | printWord =>
        refine Local.expect_bind scanned (by decide) fun _ => ?_
        exact Local.map scanned.rest ((expr_local scanned.rest).pred.mono (by omega))
      | inputWord =>
        refine Local.expect_bind scanned (by decide) fun _ => ?_
        exact Local.map scanned.rest (Local.identifier scanned.rest)
      | letWord =>
        refine Local.expect_bind scanned (by decide) fun _ => ?_
        refine Local.bind scanned.rest (Local.identifier scanned.rest) ?_
        intro n u x s₁ _ scanned₁ _
        refine Local.expect_bind scanned₁ (by decide) fun _ => ?_
        exact Local.map scanned₁.rest ((expr_local scanned₁.rest).pred.mono (by omega))
      | ifWord =>
        refine guarded_local scanned .ifWord fun u c s₁ scanned₁ read₁ passed => ?_
        refine Local.bind scanned₁ (shorter scanned₁ read₁ passed) ?_
        intro n v b s₂ _ scanned₂ read₂
        refine Local.accept_bind scanned₂ (by decide) (fun found => ?_) Local.pure
        have front := scanned₂.pending_eq (Local.inside_of_isSymbol scanned₂ (by decide) found)
        have passed' : s.pending = (u ++ v ++ [s₂.current]) ++ s₂.rest.pending := by
          rw [read₁, read₂, front]
          simp
        exact Local.map scanned₂.rest
          ((shorter scanned₂.rest passed' (by simp)).mono (by omega))
      | whileWord =>
        refine guarded_local scanned .whileWord fun u c s₁ scanned₁ read₁ passed => ?_
        exact Local.map scanned₁ (shorter scanned₁ read₁ passed)
      | gotoWord =>
        refine Local.advance_bind scanned inside ?_
        exact Local.map scanned.rest (labelRef_local scanned.rest)
      | nopWord => exact Local.advance_bind scanned inside Local.pure
      | exitWord => exact Local.advance_bind scanned inside Local.pure
      | _ => exact Local.fail
    | _ => exact Local.fail

/-! ## Lines -/

theorem labelDecl_local (scanned : s.Scanned) : Local d (fun _ => labelDecl) s := by
  unfold labelDecl
  refine Local.current_bind ?_
  cases kind : s.current.kind with
  | int =>
    have inside : s.current.kind ≠ .eof := by rw [kind]; decide
    rcases integer_cases scanned.current kind with ⟨n, -, apply⟩ | ⟨-, apply⟩
    · refine Local.advance_bind scanned inside ?_
      have number {d : Nat} {s' : TokenStream} (scanned' : s'.Scanned) :
          Local d (fun _ => do return some (Label.num (← integer s.current))) s' :=
        Local.map scanned' (Local.of_const apply)
      exact Local.accept_bind scanned.rest (by decide) (fun _ => number scanned.rest.rest)
        (number scanned.rest)
    · refine Local.refuse (e := .integerTooLong s.current) (fun _ t => ?_) rfl
      obtain ⟨b, t', accepted⟩ : ∃ b t', accept ":" t.rest = .ok b t' := by
        rw [accept_apply]
        split
        · exact ⟨_, _, rfl⟩
        · exact ⟨_, _, rfl⟩
      exact ⟨t', (bind_apply_of_ok accepted).trans (bind_apply_of_error (apply t'))⟩
  | ident =>
    refine Local.advance_bind scanned (by rw [kind]; decide) ?_
    exact Local.accept_bind scanned.rest (by decide) (fun _ => Local.pure) Local.fail
  | _ => exact Local.pure

/-- By induction on the length of the stream, of which the mark between statements is passed in
every round. -/
theorem stmtsFrom_local (scanned : s.Scanned) : Local 1 stmtsFrom s := by
  induction size : s.pending.length using Nat.strongRecOn generalizing s with
  | ind j ih =>
    refine Local.succ ?_
    unfold stmtsFrom
    refine Local.accept_bind scanned (by decide) (fun found => ?_) Local.pure
    have front := scanned.pending_eq (Local.inside_of_isSymbol scanned (by decide) found)
    refine Local.bind scanned.rest ((stmt_local scanned.rest).pred.mono (by omega)) ?_
    intro n u a s' _ scanned' read
    have shorter : s'.pending.length < j := by
      rw [← size, front, read, List.length_cons, List.length_append]
      omega
    exact Local.map scanned' ((ih _ shorter scanned' rfl).mono (by omega))

theorem endOfLine_local (scanned : s.Scanned) : Local d (fun _ => endOfLine) s := by
  unfold endOfLine
  refine Local.current_bind ?_
  by_cases feed : s.current.kind = .newline
  · simp only [if_pos feed]
    exact Local.advance_bind scanned (by rw [feed]; decide) Local.pure
  · simp only [if_neg feed]
    by_cases final : s.current.kind = .eof
    · simp only [if_pos final]
      exact Local.pure
    · simp only [if_neg final]
      exact Local.fail

/-- A line looks at the token behind it, which ends it. -/
theorem line_local (scanned : s.Scanned) : Local 1 line s := by
  unfold line
  refine Local.current_bind ?_
  refine Local.bind scanned (labelDecl_local scanned) fun n u label s₁ _ scanned₁ _ => ?_
  refine Local.bind scanned₁ ((stmt_local scanned₁).mono (by omega)) ?_
  intro n v a s₂ _ scanned₂ _
  refine Local.bind scanned₂ ((stmtsFrom_local scanned₂).mono (by omega)) ?_
  intro n w ss s₃ _ scanned₃ _
  exact Local.map scanned₃ (endOfLine_local scanned₃)

/-! ## Programs -/

theorem skipNewlines_local (scanned : s.Scanned) : Local d (fun _ => skipNewlines) s := by
  refine ⟨fun {n a s'} _ result => ?_, fun {n e s'} _ result => (nomatch result)⟩
  cases result
  refine ⟨_, List.takeWhile_append_dropWhile.symm, rfl, fun m v l _ agree => ?_⟩
  have visible :
      ((s.pending.dropWhile fun t => t.kind = .newline).headD s.last).kind ≠ .newline := by
    have first := List.head?_dropWhile_not (fun t : Token => t.kind = .newline) s.pending
    rw [List.headD_eq_head?_getD]
    cases shape : (s.pending.dropWhile fun t => t.kind = .newline).head? with
    | none =>
      change s.last.kind ≠ .newline
      rw [scanned.last.2]
      decide
    | some t =>
      rw [shape] at first
      simpa using first
  have stays : v.dropWhile (fun t => t.kind = .newline) = v := by
    cases v with
    | nil => rfl
    | cons t v =>
      refine List.dropWhile_cons_of_neg ?_
      rw [List.headD_cons] at agree
      rw [agree, decide_eq_true_eq]
      exact visible
  change EStateM.Result.ok () (TokenStream.mk (List.dropWhile _ (_ ++ v)) l) = _
  rw [List.dropWhile_append_of_pos, stays]
  intro t mem
  simpa using List.all_eq_true.1 List.all_takeWhile t mem

/-- By induction on the length of the stream: a line is not empty, so what is left for the other
lines is shorter. -/
theorem program_local (scanned : s.Scanned) : Local 1 program s := by
  induction size : s.pending.length using Nat.strongRecOn generalizing s with
  | ind j ih =>
    refine Local.succ ?_
    unfold program
    refine Local.bind scanned (skipNewlines_local scanned) fun n u _ s₁ _ scanned₁ read₁ => ?_
    refine Local.current_bind ?_
    by_cases final : s₁.current.kind = .eof
    · simp only [if_pos final]
      exact Local.pure
    simp only [if_neg final]
    refine Local.bind scanned₁ ((line_local scanned₁).pred.mono (by omega)) ?_
    intro n v a s₂ ok scanned₂ read₂
    obtain ⟨v', read₂', -, ended⟩ := (line_reads (n + 1) scanned₁).of_ok ok
    have taken : v ≠ [] := by
      rw [List.append_cancel_right (read₂.symm.trans read₂')]
      rcases ended with ⟨body, -⟩ | ⟨w, t, rfl, -, -⟩
      · exact body.ne_nil
      · simp
    have positive := List.length_pos_iff.2 taken
    have shorter : s₂.pending.length < j := by
      rw [← size, read₁, read₂, List.length_append, List.length_append]
      omega
    exact Local.map scanned₂ ((ih _ shorter scanned₂ rfl).mono (by omega))

end GotoBasic.Parser
