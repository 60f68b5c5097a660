import GotoBasic.Proofs.Parser.Reads

/-!
# The productions of expressions and statements

Every parser of the grammar fulfils its contract `Parser.Reads`, whatever its bound: what it
accepts is derivable, and what it has passed when it fails can be completed.
-/

namespace GotoBasic

namespace Grammar

/-! ## Chains -/

section Chains

variable {tier : BinaryOp → Bool} {Operand : List Token → Expr → Prop}

theorem Chain.single {u : List Token} {e : Expr} (operand : Operand u e) :
    Chain tier Operand u e := by
  have chain : Chain tier Operand (u ++ []) (e.foldLinks []) := .intro operand .nil
  rwa [List.append_nil] at chain

/-- One more link behind the others.  Links are derived from the front, while a parser adds them at
the end. -/
theorem Links.snoc {u v : List Token} {t : Token} {op : BinaryOp} {e : Expr}
    {links : List (BinaryOp × Expr)} (derives : Links tier Operand u links) (known : tier op)
    (operator : Operator op.symbol t) (operand : Operand v e) :
    Links tier Operand (u ++ t :: v) (links ++ [(op, e)]) := by
  induction derives with
  | nil =>
    have link : Links tier Operand (t :: v ++ []) [(op, e)] := .cons known operator operand .nil
    rwa [List.append_nil] at link
  | cons known' operator' operand' more ih =>
    rw [List.append_assoc, List.cons_append]
    exact .cons known' operator' operand' ih

/-- One more operand behind a chain. -/
theorem Chain.snoc {u v : List Token} {t : Token} {op : BinaryOp} {l r : Expr}
    (derives : Chain tier Operand u l) (known : tier op) (operator : Operator op.symbol t)
    (operand : Operand v r) : Chain tier Operand (u ++ t :: v) (.binary l.pos op l r) := by
  cases derives with
  | @intro u u' e links first more =>
    have chain := Chain.intro first (more.snoc known operator operand)
    rw [Expr.foldLinks, List.foldl_append] at chain
    rw [List.append_assoc]
    exact chain

end Chains

/-! ## Completions -/

/-- Tokens that are spelled like a list have one token for each entry of it. -/
theorem exists_cons_of_spelling {ws : List Token} {x : TokenKind × String}
    {w : List (TokenKind × String)} (spelled : ws.map Token.spelling = x :: w) :
    ∃ t ws', ws = t :: ws' ∧ t.kind = x.1 ∧ t.text = x.2 ∧ ws'.map Token.spelling = w := by
  obtain ⟨t, ws', rfl, rfl, rest⟩ := List.map_eq_cons_iff.1 spelled
  exact ⟨t, ws', rfl, rfl, rfl, rest⟩

/-- The shortest expression. -/
def anExpression : List (TokenKind × String) := [(.int, "0")]

/-- The shortest statement. -/
def aStatement : List (TokenKind × String) := [(.keyword .nopWord, "NOP")]

theorem plain_anExpression : ∀ x ∈ anExpression, Plain x := by
  intro x mem
  rw [List.mem_singleton.1 mem]
  exact ⟨⟨by decide, List.all_eq_true.1 (by decide)⟩, by decide, by decide⟩

theorem plain_aStatement : ∀ x ∈ aStatement, Plain x := by
  intro x mem
  rw [List.mem_singleton.1 mem]
  exact plain_word .nopWord

/-- An operand by itself is an expression. -/
theorem Expression.of_unary {u : List Token} {e : Expr} (operand : Unary u e) :
    Expression u e := .single (.single operand)

theorem exists_primary {ws : List Token} (spelled : ws.map Token.spelling = anExpression) :
    ∃ e, Primary Expression ws e := by
  obtain ⟨t, ws', rfl, kind, text, rest⟩ := exists_cons_of_spelling spelled
  rw [List.map_eq_nil_iff.1 rest]
  refine ⟨_, .int ⟨kind, ?_, rfl⟩⟩
  rw [text]
  decide

/-- Tokens spelled like the shortest expression are one. -/
theorem exists_expression {ws : List Token} (spelled : ws.map Token.spelling = anExpression) :
    ∃ e, Expression ws e := by
  obtain ⟨e, operand⟩ := exists_primary spelled
  exact ⟨e, .of_unary (.primary operand)⟩

/-- Tokens spelled like the shortest statement are one. -/
theorem exists_statement {ws : List Token} (spelled : ws.map Token.spelling = aStatement) :
    ∃ s, Statement ws s := by
  obtain ⟨t, ws', rfl, kind, text, rest⟩ := exists_cons_of_spelling spelled
  rw [List.map_eq_nil_iff.1 rest]
  exact ⟨_, .nop kind⟩

/-- The shortest end of a conditional behind its condition. -/
def aThenPart : List (TokenKind × String) := (.keyword .thenWord, "THEN") :: aStatement

theorem plain_aThenPart : ∀ x ∈ aThenPart, Plain x := by
  intro x mem
  rcases List.mem_cons.1 mem with rfl | mem
  · exact plain_word .thenWord
  · exact plain_aStatement x mem

/-- Tokens spelled like the shortest end of a conditional are one. -/
theorem exists_thenPart {ws : List Token} (spelled : ws.map Token.spelling = aThenPart) :
    ∃ h v s, ws = h :: v ∧ Word .thenWord h ∧ Statement v s := by
  obtain ⟨h, v, rfl, kind, -, rest⟩ := exists_cons_of_spelling spelled
  obtain ⟨s, body⟩ := exists_statement rest
  exact ⟨h, v, s, rfl, kind, body⟩

theorem completable_primary : Completable (Primary Expression) [] :=
  ⟨anExpression, plain_anExpression, fun _ spelled => exists_primary spelled⟩

theorem plain_name : Plain (.ident, "x") :=
  ⟨⟨'x', [], rfl, by decide, by simp, by decide⟩, by decide, by decide⟩

theorem completable_statement : Completable Statement [] :=
  ⟨aStatement, plain_aStatement, fun _ spelled => exists_statement spelled⟩

end Grammar

namespace Parser

open Grammar

/-! ## Expressions -/

/-- An operator is the one of its symbol, known or not. -/
theorem symbol_ofSymbol_binary (s : String) : (BinaryOp.ofSymbol s).symbol = s := by
  unfold BinaryOp.ofSymbol
  split <;> rfl

theorem symbol_ofSymbol_unary (s : String) : (UnaryOp.ofSymbol s).symbol = s := by
  unfold UnaryOp.ofSymbol
  split <;> rfl

/-- The operator of a tier that a token is. -/
theorem binaryOp?_eq_some_iff {t : Token} {tier : BinaryOp → Bool} {op : BinaryOp}
    (known : ∀ op, tier op → op.isArith ∨ op.isLogic) :
    t.binaryOp? tier = some op ↔ tier op ∧ Operator op.symbol t := by
  unfold Token.binaryOp?
  dsimp only
  constructor
  · intro found
    split at found
    next fits =>
      cases found
      exact ⟨fits.2, fits.1, (symbol_ofSymbol_binary t.text).symm⟩
    · cases found
  · rintro ⟨fits, kind, text⟩
    have same : BinaryOp.ofSymbol t.text = op := by
      rw [text, BinaryOp.ofSymbol_symbol (known op fits)]
    rw [same, if_pos ⟨kind, fits⟩]

/-- The operator before an operand that a token is. -/
theorem unaryOp?_eq_some_iff {t : Token} {op : UnaryOp} :
    t.unaryOp? = some op ↔ op.isKnown ∧ Operator op.symbol t := by
  unfold Token.unaryOp?
  dsimp only
  constructor
  · intro found
    split at found
    next fits =>
      cases found
      exact ⟨fits.2, fits.1, (symbol_ofSymbol_unary t.text).symm⟩
    · cases found
  · rintro ⟨known, kind, text⟩
    have same : UnaryOp.ofSymbol t.text = op := by rw [text, UnaryOp.ofSymbol_symbol known]
    rw [same, if_pos ⟨kind, known⟩]

section Chains

variable {tier : BinaryOp → Bool} {operand : Parser Expr} {Operand : List Token → Expr → Prop}
  (known : ∀ op, tier op → op.isArith ∨ op.isLogic)
  (operands : ∀ s : TokenStream, s.Scanned → Reads operand Operand s)

include known operands

/-- The links of a chain behind its left part. -/
theorem chainFrom_reads (n : Nat) (left : Expr) {s : TokenStream} (scanned : s.Scanned) :
    Reads (chainFrom tier operand n left)
      (fun u e => ∃ links, Links tier Operand u links ∧ e = left.foldLinks links) s := by
  induction n generalizing left s with
  | zero => exact Reads.pure ⟨[], .nil, rfl⟩
  | succ n ih =>
    unfold chainFrom
    refine Reads.current_bind ?_
    cases found : s.current.binaryOp? tier with
    | none => exact Reads.pure ⟨[], .nil, rfl⟩
    | some op =>
      obtain ⟨fits, operator⟩ := (binaryOp?_eq_some_iff known).1 found
      refine Reads.advance_bind scanned (by rw [operator.1]; decide) ?_
      refine Reads.bind scanned.rest (operands _ scanned.rest) [] (by simp) ?_ ?_
      · intro u e derives ws spelled
        rw [List.map_eq_nil_iff.1 spelled]
        exact ⟨_, [(op, e)], .cons fits operator derives .nil, rfl⟩
      · intro u e s' _ scanned' _ derives
        refine (ih (.binary left.pos op left e) scanned').mono ?_
        rintro v _ ⟨links, more, rfl⟩
        exact ⟨(op, e) :: links, .cons fits operator derives more, rfl⟩

/-- What a chain of operands reads is one operand and its links. -/
theorem chain_reads (n : Nat) {s : TokenStream} (scanned : s.Scanned) :
    Reads (chain tier n operand) (Chain tier Operand) s := by
  refine Reads.bind scanned (operands s scanned) [] (by simp) ?_ ?_
  · intro u e derives ws spelled
    rw [List.map_eq_nil_iff.1 spelled]
    exact ⟨_, .intro derives .nil⟩
  · intro u e s' _ scanned' _ derives
    refine (chainFrom_reads known operands n e scanned').mono ?_
    rintro v _ ⟨links, more, rfl⟩
    exact .intro derives more

end Chains

/-- Two tiers of chains are an expression. -/
theorem exprOf_reads {unary : Parser Expr}
    (operands : ∀ s : TokenStream, s.Scanned → Reads unary Unary s) (n : Nat) {s : TokenStream}
    (scanned : s.Scanned) : Reads (exprOf n unary) Expression s :=
  chain_reads (fun _ => .inr)
    (fun _ scanned => chain_reads (fun _ => .inl) operands n scanned) n scanned

/-- A number that is read as soon as it has been passed: if it is too long, it is the token that
is complained about, although the parser stands behind it. -/
theorem integer_bind_reads {α : Type} {R : List Token → α → Prop} {g : Int → α}
    {s : TokenStream} (scanned : s.Scanned) (kind : s.current.kind = .int)
    (completable : Completable R []) (into : ∀ n, Integer s.current n → R [s.current] (g n)) :
    Reads (do advance; return g (← integer s.current)) R s := by
  have front := scanned.pending_eq (by rw [kind]; decide)
  unfold Reads
  rw [advance_bind_apply]
  rcases integer_cases scanned.current kind with ⟨n, literal, apply⟩ | ⟨-, apply⟩
  · rw [bind_apply_of_ok (apply s.rest)]
    exact ⟨[s.current], front, rfl, into n literal⟩
  · rw [bind_apply_of_error (apply s.rest)]
    exact ⟨[], s.pending, rfl, rfl, completable⟩

/-- Each kind of token that can begin an operand has its case; a group that fails is completed by
what its inside misses and a parenthesis. -/
theorem primary_reads {inner : Parser Expr}
    (inners : ∀ s : TokenStream, s.Scanned → Reads inner Expression s) {s : TokenStream}
    (scanned : s.Scanned) : Reads (primary inner) (Primary Expression) s := by
  have literal {e : Expr} (inside : s.current.kind ≠ .eof)
      (derives : Primary Expression [s.current] e) :
      Reads (advance >>= fun _ => pure e) (Primary Expression) s :=
    Reads.advance_bind scanned inside (Reads.pure derives)
  have group : Reads (if s.current.isSymbol "(" then do
        advance
        let e ← inner
        expect ")"
        return e
      else fail .expression) (Primary Expression) s := by
    by_cases found : s.current.isSymbol "("
    · rw [if_pos found]
      have left := (scanned.isSymbol_operator (by simp [operatorSpellings])).1 found
      refine Reads.advance_bind scanned (by rw [left.1]; decide) ?_
      refine Reads.bind scanned.rest (inners _ scanned.rest) [(.op, ")")] ?_ ?_ ?_
      · simpa using plain_operator (by simp [operatorSpellings])
      · intro u e derives ws spelled
        obtain ⟨r, rfl, spelling⟩ := List.map_eq_singleton_iff.1 spelled
        injection spelling with kind text
        exact ⟨e, .group left derives ⟨kind, text⟩⟩
      · intro u e s' _ scanned' _ derives
        refine Reads.map scanned' (Reads.expect_operator scanned' (by simp [operatorSpellings])) ?_
        rintro v _ ⟨r, rfl, right⟩
        exact .group left derives right
    · rw [if_neg found]
      exact Reads.fail completable_primary
  unfold primary
  refine Reads.current_bind ?_
  cases kind : s.current.kind with
  | int => exact integer_bind_reads scanned kind completable_primary fun n literal => .int literal
  | float =>
    obtain ⟨x, denotes, apply⟩ := double_apply scanned.current kind
    refine Reads.advance_bind scanned (by rw [kind]; decide) ?_
    unfold Reads
    rw [bind_apply_of_ok (apply s.rest)]
    exact ⟨[], rfl, rfl, .float denotes⟩
  | string => exact literal (by rw [kind]; decide) (.string kind)
  | bool => exact literal (by rw [kind]; decide) (.bool kind)
  | ident => exact literal (by rw [kind]; decide) (.var kind)
  | _ => exact group

/-- Operands fulfil their contract at every bound: where the bound is used up, the parser fails
at a token before which any expression could stand. -/
theorem unary_reads (n : Nat) {s : TokenStream} (scanned : s.Scanned) :
    Reads (unary n) Unary s := by
  induction n generalizing s with
  | zero => exact Reads.fail (completable_primary.mono fun _ e operand => ⟨e, .primary operand⟩)
  | succ n ih =>
    unfold unary
    refine Reads.current_bind ?_
    cases found : s.current.unaryOp? with
    | some op =>
      obtain ⟨known, operator⟩ := unaryOp?_eq_some_iff.1 found
      refine Reads.advance_bind scanned (by rw [operator.1]; decide) ?_
      exact Reads.map scanned.rest (ih scanned.rest) fun u e operand =>
        .apply known operator operand
    | none =>
      refine (primary_reads (fun _ scanned => exprOf_reads (fun _ => ih) n scanned) scanned).mono ?_
      exact fun u e operand => .primary operand

theorem expr_reads (n : Nat) {s : TokenStream} (scanned : s.Scanned) :
    Reads (expr n) Expression s :=
  exprOf_reads (fun _ => unary_reads n) n scanned

/-! ## Statements -/

/-- An `IF` without `ELSE` is only read where no `ELSE` follows. -/
theorem stmt_ensures_closed (n : Nat) (s : TokenStream) :
    Ensures (stmt n) (fun a s' => a.isOpen → s'.current.isSymbol "ELSE" = false) s := by
  induction n generalizing s with
  | zero => exact Ensures.fail
  | succ n ih =>
    unfold stmt
    refine Ensures.bind fun t _ _ => ?_
    -- Only the last part of a conditional or a loop can be open.
    split
    · exact .bind fun _ _ _ => .bind fun _ _ _ => .pure nofun
    · exact .bind fun _ _ _ => .bind fun _ _ _ => .pure nofun
    · exact .bind fun _ _ _ => .bind fun _ _ _ => .bind fun _ _ _ => .bind fun _ _ _ => .pure nofun
    · refine .bind fun _ _ _ => .bind fun _ _ _ => .bind fun _ _ _ => .bind fun _ s₁ _ => ?_
      refine .bind fun found s₂ accepted => ?_
      rw [accept_apply] at accepted
      split at accepted
      · cases accepted
        exact .bind fun o s₃ ok => .pure (ih s₁.rest o s₃ ok)
      next absent =>
        cases accepted
        exact .pure fun _ => by simpa using absent
    · exact .bind fun _ _ _ => .bind fun _ _ _ => .bind fun _ s₁ _ => .bind fun o s₂ ok =>
        .pure (ih s₁ o s₂ ok)
    · exact .bind fun _ _ _ => .bind fun _ _ _ => .pure nofun
    · exact .bind fun _ _ _ => .pure nofun
    · exact .bind fun _ _ _ => .pure nofun
    · exact .fail

/-- A target is a number or a name; where neither stands, either of them completes what was read. -/
theorem labelRef_reads {s : TokenStream} (scanned : s.Scanned) :
    Reads labelRef (fun u l => ∃ t, u = [t] ∧ Target t l) s := by
  have completable : Completable (fun u l => ∃ t, u = [t] ∧ Target t l) [] := by
    refine ⟨anExpression, plain_anExpression, fun ws spelled => ?_⟩
    obtain ⟨t, rfl, spelling⟩ := List.map_eq_singleton_iff.1 spelled
    injection spelling with kind text
    exact ⟨_, t, rfl, .number ⟨kind, by rw [text]; decide, rfl⟩⟩
  unfold labelRef
  refine Reads.current_bind ?_
  cases kind : s.current.kind with
  | int =>
    exact integer_bind_reads scanned kind completable fun n literal => ⟨_, rfl, .number literal⟩
  | ident =>
    exact Reads.advance_bind scanned (by rw [kind]; decide) (Reads.pure ⟨_, rfl, .name kind⟩)
  | _ => exact Reads.fail completable

theorem identifier_reads {s : TokenStream} (scanned : s.Scanned) :
    Reads identifier (fun u x => ∃ t, u = [t] ∧ t.kind = .ident ∧ x = t.text) s := by
  unfold Reads
  rw [identifier_apply]
  by_cases found : s.current.kind = .ident
  · rw [if_pos found]
    exact ⟨[s.current], scanned.pending_eq (by rw [found]; decide), rfl, _, rfl, found, rfl⟩
  · rw [if_neg found]
    refine ⟨[], s.pending, rfl, rfl, [(.ident, "x")], by simpa using plain_name, ?_⟩
    intro ws spelled
    obtain ⟨t, rfl, spelling⟩ := List.map_eq_singleton_iff.1 spelled
    injection spelling with kind text
    exact ⟨_, t, rfl, kind, rfl⟩

/-- An assignment that fails is completed by what is missing of name, sign and expression. -/
theorem assign_reads {s : TokenStream} (scanned : s.Scanned) (n : Nat) :
    Reads (do
        expect "LET"
        let x ← identifier
        expect "="
        return .assign s.current.pos x (← expr n)) Statement s := by
  have sign : "=" ∈ operatorSpellings := by simp [operatorSpellings]
  have plain : ∀ x ∈ (.op, "=") :: anExpression, Plain x :=
    List.forall_mem_cons.2 ⟨plain_operator sign, plain_anExpression⟩
  have value {t x : Token} (word : Word .letWord t) (name : x.kind = .ident) {ws : List Token}
      (spelled : ws.map Token.spelling = (.op, "=") :: anExpression) :
      ∃ a, Statement (t :: x :: ws) a := by
    obtain ⟨q, ws, rfl, kind, text, spelled⟩ := exists_cons_of_spelling spelled
    obtain ⟨e, value⟩ := exists_expression spelled
    exact ⟨_, .assign word name ⟨kind, text⟩ value⟩
  refine Reads.bind_token scanned (Reads.expect_word scanned .letWord)
    ((.ident, "x") :: (.op, "=") :: anExpression) (List.forall_mem_cons.2 ⟨plain_name, plain⟩) ?_ ?_
  · intro t _ word ws spelled
    obtain ⟨x, ws, rfl, name, -, spelled⟩ := exists_cons_of_spelling spelled
    exact value word name spelled
  rintro _ _ s₁ scanned₁ rfl word
  refine Reads.bind_token scanned₁ (identifier_reads scanned₁) ((.op, "=") :: anExpression) plain
    ?_ ?_
  · rintro x _ ⟨name, -⟩ ws spelled
    exact value word name spelled
  rintro x _ s₂ scanned₂ - ⟨name, rfl⟩
  refine Reads.bind_token scanned₂ (Reads.expect_operator scanned₂ sign) anExpression
    plain_anExpression ?_ ?_
  · intro q _ equals ws spelled
    obtain ⟨e, value⟩ := exists_expression spelled
    exact ⟨_, .assign word name equals value⟩
  · intro q _ s₃ scanned₃ _ equals
    exact Reads.map scanned₃ (expr_reads n scanned₃) fun u e value =>
      .assign word name equals value

/-- A statement that starts with a word, a condition and `THEN`, and that a body ends. -/
theorem guarded_reads {f : Expr → Parser Stmt} {s : TokenStream} (scanned : s.Scanned)
    (k : Keyword) (n : Nat)
    (go : ∀ t u c h v b, Word k t → Expression u c → Word .thenWord h → Statement v b →
      ∃ a, Statement (t :: u ++ h :: v) a)
    (next : ∀ u c h s', s'.Scanned → Word k s.current → Expression u c → Word .thenWord h →
      Reads (f c) (fun v a => Statement (s.current :: u ++ h :: v) a) s') :
    Reads (do expect k.spelling; let c ← expr n; expect "THEN"; f c) Statement s := by
  have plain : ∀ x ∈ anExpression ++ aThenPart, Plain x := fun x mem =>
    (List.mem_append.1 mem).elim (plain_anExpression x) (plain_aThenPart x)
  refine Reads.bind_token scanned (Reads.expect_word scanned k) (anExpression ++ aThenPart) plain
    ?_ ?_
  · intro t _ word ws spelled
    obtain ⟨u, ws, rfl, spelled, spelled'⟩ := List.map_eq_append_iff.1 spelled
    obtain ⟨c, cond⟩ := exists_expression spelled
    obtain ⟨h, v, b, rfl, thenWord, body⟩ := exists_thenPart spelled'
    exact go t u c h v b word cond thenWord body
  rintro _ _ s₁ scanned₁ rfl word
  refine Reads.bind scanned₁ (expr_reads n scanned₁) aThenPart plain_aThenPart ?_ ?_
  · intro u c cond ws spelled
    obtain ⟨h, v, b, rfl, thenWord, body⟩ := exists_thenPart spelled
    exact go _ u c h v b word cond thenWord body
  intro u c s₂ _ scanned₂ _ cond
  refine Reads.bind_token scanned₂ (Reads.expect_word scanned₂ .thenWord) aStatement
    plain_aStatement ?_ ?_
  · intro h _ thenWord ws spelled
    obtain ⟨b, body⟩ := exists_statement spelled
    exact go _ u c h ws b word cond thenWord body
  · intro h _ s₃ scanned₃ _ thenWord
    exact next u c h s₃ scanned₃ word cond thenWord

/-- The branches of a conditional.  A first branch that an `ELSE` follows is not open, for else it
would have taken the `ELSE`. -/
theorem branches_reads {n : Nat}
    (stmts : ∀ {s : TokenStream}, s.Scanned → Reads (stmt n) Statement s)
    {t h : Token} {u : List Token} {c : Expr} (word : Word .ifWord t) (cond : Expression u c)
    (thenWord : Word .thenWord h) {s : TokenStream} (scanned : s.Scanned) :
    Reads (do
        let body ← stmt n
        if ← accept "ELSE" then
          return .ifElse t.pos c body (← stmt n)
        else
          return .ifThen t.pos c body)
      (fun v a => Statement (t :: u ++ h :: v) a) s := by
  refine Reads.bind scanned (stmts scanned) [] (by simp) ?_ ?_
  · intro v b body ws spelled
    rw [List.map_eq_nil_iff.1 spelled, List.append_nil]
    exact ⟨_, .ifThen word cond thenWord body⟩
  intro v b s₁ ok scanned₁ _ body
  have isElse := scanned₁.isSymbol_spelling .elseWord
  refine Reads.accept_bind scanned₁ (fun found => ?_) (fun found => ?_) fun absent => ?_
  · rw [show s₁.current.kind = _ from isElse.1 found]
    simp
  · have nearest : b.isOpen = false := by
      cases isOpen : b.isOpen with
      | false => rfl
      | true =>
        rw [stmt_ensures_closed n s b s₁ ok isOpen] at found
        cases found
    refine Reads.map scanned₁.rest (stmts scanned₁.rest) fun w o other => ?_
    have whole := Statement.ifElse word cond thenWord body nearest (isElse.1 found) other
    simpa using whole
  · refine Reads.pure ?_
    simpa using Statement.ifThen word cond thenWord body

/-- Statements fulfil their contract at every bound. -/
theorem stmt_reads (n : Nat) {s : TokenStream} (scanned : s.Scanned) :
    Reads (stmt n) Statement s := by
  induction n generalizing s with
  | zero => exact Reads.fail completable_statement
  | succ n ih =>
    unfold stmt
    refine Reads.current_bind ?_
    cases kind : s.current.kind with
    | keyword k =>
      cases k with
      | printWord =>
        refine Reads.bind_token scanned (Reads.expect_word scanned .printWord) anExpression
          plain_anExpression ?_ ?_
        · intro t _ word ws spelled
          obtain ⟨e, value⟩ := exists_expression spelled
          exact ⟨_, .print word value⟩
        · rintro _ _ s' scanned' rfl word
          exact Reads.map scanned' (expr_reads _ scanned') fun u e value => .print word value
      | inputWord =>
        refine Reads.bind_token scanned (Reads.expect_word scanned .inputWord) [(.ident, "x")]
          (by simpa using plain_name) ?_ ?_
        · intro t _ word ws spelled
          obtain ⟨x, rfl, spelling⟩ := List.map_eq_singleton_iff.1 spelled
          injection spelling with name
          exact ⟨_, .input word name⟩
        · rintro _ _ s' scanned' rfl word
          refine Reads.map scanned' (identifier_reads scanned') ?_
          rintro _ _ ⟨x, rfl, name, rfl⟩
          exact .input word name
      | letWord => exact assign_reads scanned (n + 1)
      | ifWord =>
        refine guarded_reads scanned .ifWord (n + 1) ?_ ?_
        · exact fun t u c h v b word cond thenWord body => ⟨_, .ifThen word cond thenWord body⟩
        · exact fun u c h s' scanned' word cond thenWord =>
            branches_reads ih word cond thenWord scanned'
      | whileWord =>
        refine guarded_reads scanned .whileWord (n + 1) ?_ ?_
        · exact fun t u c h v b word cond thenWord body => ⟨_, .whileThen word cond thenWord body⟩
        · exact fun u c h s' scanned' word cond thenWord => Reads.map scanned' (ih scanned')
            fun v b body => .whileThen word cond thenWord body
      | gotoWord =>
        refine Reads.advance_bind scanned (by rw [kind]; decide) ?_
        refine Reads.map scanned.rest (labelRef_reads scanned.rest) ?_
        rintro _ l ⟨x, rfl, target⟩
        exact .goto kind target
      | nopWord =>
        exact Reads.advance_bind scanned (by rw [kind]; decide) (Reads.pure (.nop kind))
      | exitWord =>
        exact Reads.advance_bind scanned (by rw [kind]; decide) (Reads.pure (.exit kind))
      | _ => exact Reads.fail completable_statement
    | _ => exact Reads.fail completable_statement

end Parser

end GotoBasic
