import GotoBasic.Proofs.Parser.Lines

/-!
# Parsers accept what the grammar derives

If a list derives a tree, then the parser of the nonterminal reads exactly this list and returns
this tree, provided that its bound exceeds the number of tokens and that the token behind the
list cannot continue it.  For an expression this means that no binary operator follows, for a
statement with an open end that no `ELSE` follows.  Each parser decides by the next token alone,
so the proofs only have to show that the derivation and the parser decide alike.
-/

namespace GotoBasic.Parser

open Grammar

variable {l : Token}

/-! ## Chains -/

/-- The token behind a link is an operator of the tier, or what follows the whole chain. -/
theorem Links.follow {tier : BinaryOp → Bool} {Operand : List Token → Expr → Prop}
    {v r : List Token} {links : List (BinaryOp × Expr)} {Follow : Token → Prop}
    (operators : ∀ t op, tier op → Operator op.symbol t → Follow t)
    (more : Links tier Operand v links) (follow : Follow (r.headD l)) :
    Follow ((v ++ r).headD l) := by
  cases more with
  | nil => exact follow
  | cons known operator _ _ => exact operators _ _ known operator

section Chains

variable {tier : BinaryOp → Bool} {operand : Parser Expr} {Operand : List Token → Expr → Prop}
  (Follow : Token → Prop) (bound : Nat)
  (known : ∀ op, tier op → op.isArith ∨ op.isLogic)
  (operators : ∀ t op, tier op → Operator op.symbol t → Follow t)
  (operands : ∀ {u r : List Token} {e : Expr}, Operand u e →
    TokenStream.Scanned ⟨u ++ r, l⟩ → (u ++ r).length < bound → Follow (r.headD l) →
    operand ⟨u ++ r, l⟩ = .ok e ⟨r, l⟩)

include known operators operands

/-- The loop over the operands reads all links of the chain, by induction on the links, and then
stops, since the token behind them is no operator of the tier.  Two bounds are at work: `n` is that
of the loop and counts links, `bound` that of the operands and counts tokens. -/
theorem chainFrom_complete {u r : List Token} {links : List (BinaryOp × Expr)} {n : Nat}
    (left : Expr) (derives : Links tier Operand u links)
    (scanned : TokenStream.Scanned ⟨u ++ r, l⟩) (below : (u ++ r).length < bound)
    (enough : (u ++ r).length ≤ n) (follow : Follow (r.headD l))
    (ended : (r.headD l).binaryOp? tier = none) :
    chainFrom tier operand n left ⟨u ++ r, l⟩ = .ok (left.foldLinks links) ⟨r, l⟩ := by
  induction derives generalizing n left with
  | nil =>
    cases n with
    | zero => rfl
    | succ n =>
      have none : (TokenStream.current ⟨[] ++ r, l⟩).binaryOp? tier = none := ended
      unfold chainFrom
      rw [current_bind_apply, none]
      rfl
  | @cons t u v op e links fits operator first more ih =>
    cases n with
    | zero => simp at enough
    | succ n =>
      have found : t.binaryOp? tier = some op := (binaryOp?_eq_some_iff known).2 ⟨fits, operator⟩
      have scanned₁ : TokenStream.Scanned ⟨u ++ (v ++ r), l⟩ := by
        simpa using scanned.rest
      have scanned₂ : TokenStream.Scanned ⟨v ++ r, l⟩ := scanned₁.of_append rfl rfl
      simp only [List.length_append, List.length_cons] at below enough
      have right : operand ⟨u ++ (v ++ r), l⟩ = .ok e ⟨v ++ r, l⟩ :=
        operands first scanned₁ (by simp only [List.length_append]; omega)
          (Links.follow operators more follow)
      have rest := ih (.binary left.pos op left e) scanned₂
        (by simp only [List.length_append]; omega) (n := n)
        (by simp only [List.length_append]; omega)
      unfold chainFrom
      rw [current_bind_apply]
      simp only [List.cons_append, List.append_assoc, TokenStream.current_cons, found,
        advance_bind_apply, TokenStream.rest_cons]
      rw [bind_apply_of_ok right, rest]
      rfl

/-- A chain is read as its first operand and the loop over the others. -/
theorem chain_complete {u r : List Token} {e : Expr} {n : Nat} (derives : Chain tier Operand u e)
    (scanned : TokenStream.Scanned ⟨u ++ r, l⟩) (below : (u ++ r).length < bound)
    (enough : (u ++ r).length ≤ n) (follow : Follow (r.headD l))
    (ended : (r.headD l).binaryOp? tier = none) :
    chain tier n operand ⟨u ++ r, l⟩ = .ok e ⟨r, l⟩ := by
  obtain ⟨first, more⟩ := derives
  rename_i u v e links
  rw [List.append_assoc] at scanned below enough ⊢
  have left : operand ⟨u ++ (v ++ r), l⟩ = .ok e ⟨v ++ r, l⟩ :=
    operands first scanned below (Links.follow operators more follow)
  have shorter : (v ++ r).length ≤ (u ++ (v ++ r)).length := by
    rw [@List.length_append _ u]
    omega
  unfold chain
  rw [bind_apply_of_ok left]
  exact chainFrom_complete Follow bound known operators operands e more (scanned.of_append rfl rfl)
    (Nat.lt_of_le_of_lt shorter below) (Nat.le_trans shorter enough) follow ended

end Chains

/-! ## Expressions -/

/-- The token is no binary operator. -/
def NoBinary (t : Token) : Prop :=
  t.binaryOp? BinaryOp.isArith = none ∧ t.binaryOp? BinaryOp.isLogic = none

theorem binaryOp?_eq_none_of_kind {t : Token} {tier : BinaryOp → Bool} (kind : t.kind ≠ .op) :
    t.binaryOp? tier = none := by
  simp [Token.binaryOp?, kind]

theorem noBinary_of_kind {t : Token} (kind : t.kind ≠ .op) : NoBinary t :=
  ⟨binaryOp?_eq_none_of_kind kind, binaryOp?_eq_none_of_kind kind⟩

/-- Parentheses, the mark between statements and the sign of an assignment are operators of the
text, but not of expressions. -/
theorem noBinary_of_operator {t : Token} {symbol : String} (operator : Operator symbol t)
    (other : BinaryOp.ofSymbol symbol = .other symbol) : NoBinary t := by
  have none (tier : BinaryOp → Bool) (outside : tier (.other symbol) = false) :
      t.binaryOp? tier = none := by
    simp [Token.binaryOp?, operator.2, other, outside]
  exact ⟨none _ rfl, none _ rfl⟩

/-- The tiers have no operator in common. -/
theorem arithOp?_eq_none_of_logic (t : Token) (op : BinaryOp) (logic : op.isLogic)
    (operator : Operator op.symbol t) : t.binaryOp? BinaryOp.isArith = none := by
  have same : BinaryOp.ofSymbol t.text = op := by
    rw [operator.2, BinaryOp.ofSymbol_symbol (.inr logic)]
  have outside : op.isArith = false := by
    cases op <;> first | rfl | cases logic
  simp [Token.binaryOp?, same, outside]

/-- Of the two tiers the inner one ends where an operator of the outer one follows. -/
theorem exprOf_complete {n : Nat} {unary : Parser Expr}
    (operands : ∀ {u r : List Token} {e : Expr}, Unary u e →
      TokenStream.Scanned ⟨u ++ r, l⟩ → (u ++ r).length < n → unary ⟨u ++ r, l⟩ = .ok e ⟨r, l⟩)
    {u r : List Token} {e : Expr} (derives : Expression u e)
    (scanned : TokenStream.Scanned ⟨u ++ r, l⟩) (below : (u ++ r).length < n)
    (follow : NoBinary (r.headD l)) : exprOf n unary ⟨u ++ r, l⟩ = .ok e ⟨r, l⟩ := by
  refine chain_complete (fun t => t.binaryOp? BinaryOp.isArith = none) n
    (fun _ => .inr) arithOp?_eq_none_of_logic ?_ derives scanned below (Nat.le_of_lt below)
    follow.1 follow.2
  intro u r e arith scanned below ended
  exact chain_complete (fun _ => True) n (fun _ => .inl)
    (fun _ _ _ _ => trivial) (fun operand scanned below _ => operands operand scanned below) arith
    scanned below (Nat.le_of_lt below) trivial ended

theorem unaryOp?_eq_none_of_kind {t : Token} (kind : t.kind ≠ .op) : t.unaryOp? = none := by
  simp [Token.unaryOp?, kind]

/-- The first token of an operand tells which one it is.  A group ends at its own parenthesis, which
is no operator. -/
theorem primary_complete {n : Nat} {inner : Parser Expr}
    (inners : ∀ {u r : List Token} {e : Expr}, Expression u e →
      TokenStream.Scanned ⟨u ++ r, l⟩ → (u ++ r).length < n → NoBinary (r.headD l) →
      inner ⟨u ++ r, l⟩ = .ok e ⟨r, l⟩)
    {u r : List Token} {e : Expr} (derives : Primary Expression u e)
    (scanned : TokenStream.Scanned ⟨u ++ r, l⟩) (enough : (u ++ r).length ≤ n) :
    primary inner ⟨u ++ r, l⟩ = .ok e ⟨r, l⟩ := by
  unfold primary
  rw [current_bind_apply]
  cases derives with
  | @int t _ literal =>
    have wf : t.WellFormed := scanned.current
    simp only [List.cons_append, List.nil_append, TokenStream.current_cons, literal.kind]
    rw [advance_bind_apply, bind_apply_of_ok (integer_apply_of_literal wf literal _)]
    rfl
  | @float t _ literal =>
    have wf : t.WellFormed := scanned.current
    simp only [List.cons_append, List.nil_append, TokenStream.current_cons, literal.kind]
    rw [advance_bind_apply, bind_apply_of_ok (double_apply_of_literal wf literal _)]
    rfl
  | string kind =>
    simp only [List.cons_append, List.nil_append, TokenStream.current_cons, kind]
    rfl
  | bool kind =>
    simp only [List.cons_append, List.nil_append, TokenStream.current_cons, kind]
    rfl
  | var kind =>
    simp only [List.cons_append, List.nil_append, TokenStream.current_cons, kind]
    rfl
  | @group t c u e left derives right =>
    have found : t.isSymbol "(" = true := by simp [Token.isSymbol, left.1, left.2]
    have close : c.isSymbol ")" = true := by simp [Token.isSymbol, right.1, right.2]
    have scanned₁ : TokenStream.Scanned ⟨u ++ c :: r, l⟩ := by simpa using scanned.rest
    have inside : inner ⟨u ++ c :: r, l⟩ = .ok e ⟨c :: r, l⟩ :=
      inners derives scanned₁ (by simp at enough ⊢; omega) (noBinary_of_operator right rfl)
    simp only [List.cons_append, List.append_assoc, List.nil_append, TokenStream.current_cons,
      left.1, found, if_true]
    rw [advance_bind_apply, TokenStream.rest_cons, bind_apply_of_ok inside,
      bind_apply_of_ok (by rw [expect_apply, TokenStream.current_cons, if_pos close])]
    rfl

/-- Operands are read whatever follows them. -/
theorem unary_complete {n : Nat} {u r : List Token} {e : Expr} (derives : Unary u e)
    (scanned : TokenStream.Scanned ⟨u ++ r, l⟩) (enough : (u ++ r).length < n) :
    unary n ⟨u ++ r, l⟩ = .ok e ⟨r, l⟩ := by
  induction n generalizing u r e with
  | zero => exact absurd enough (Nat.not_lt_zero _)
  | succ n ih =>
    unfold unary
    rw [current_bind_apply]
    cases derives with
    | @apply t u op e known operator operand =>
      have found : t.unaryOp? = some op := unaryOp?_eq_some_iff.2 ⟨known, operator⟩
      simp only [List.cons_append, TokenStream.current_cons, found]
      rw [advance_bind_apply, TokenStream.rest_cons, bind_apply_of_ok (ih operand scanned.rest _)]
      · rfl
      · simpa using enough
    | primary operand =>
      have none : (TokenStream.current ⟨u ++ r, l⟩).unaryOp? = none := by
        cases operand with
        | int literal => exact unaryOp?_eq_none_of_kind (by simp [literal.kind])
        | float literal => exact unaryOp?_eq_none_of_kind (by simp [literal.kind])
        | string kind => exact unaryOp?_eq_none_of_kind (by simp [kind])
        | bool kind => exact unaryOp?_eq_none_of_kind (by simp [kind])
        | var kind => exact unaryOp?_eq_none_of_kind (by simp [kind])
        | group left _ _ => simp [Token.unaryOp?, left.2, UnaryOp.ofSymbol, UnaryOp.isKnown]
      rw [none]
      exact primary_complete (fun derives scanned below follow =>
        exprOf_complete ih derives scanned below follow) operand scanned (Nat.le_of_lt_succ enough)

/-- An expression is read up to a token that cannot continue it. -/
theorem expr_complete {n : Nat} {u r : List Token} {e : Expr} (derives : Expression u e)
    (scanned : TokenStream.Scanned ⟨u ++ r, l⟩) (enough : (u ++ r).length < n)
    (follow : NoBinary (r.headD l)) : expr n ⟨u ++ r, l⟩ = .ok e ⟨r, l⟩ :=
  exprOf_complete unary_complete derives scanned enough follow

/-! ## Statements -/

theorem expect_cons {symbol : String} {t : Token} {r : List Token} (found : t.isSymbol symbol) :
    expect symbol ⟨t :: r, l⟩ = .ok () ⟨r, l⟩ := by
  rw [expect_apply, TokenStream.current_cons, if_pos found, TokenStream.rest_cons]

/-- Reserved words are compared by their text, and a token of a text has the text of a reserved word
only if it is that word. -/
theorem expect_word_cons {k : Keyword} {t : Token} {r : List Token}
    (scanned : TokenStream.Scanned ⟨t :: r, l⟩) (word : Word k t) :
    expect k.spelling ⟨t :: r, l⟩ = .ok () ⟨r, l⟩ :=
  expect_cons ((scanned.isSymbol_spelling k).2 word)

theorem expect_operator_cons {symbol : String} {t : Token} {r : List Token}
    (operator : Operator symbol t) : expect symbol ⟨t :: r, l⟩ = .ok () ⟨r, l⟩ :=
  expect_cons (by simp [Token.isSymbol, operator.1, operator.2])

theorem identifier_cons {t : Token} {r : List Token} (name : t.kind = .ident) :
    identifier ⟨t :: r, l⟩ = .ok t.text ⟨r, l⟩ := by
  rw [identifier_apply, TokenStream.current_cons, if_pos name, TokenStream.rest_cons]

/-- A target is a number or a name, and the kind of the token tells which. -/
theorem labelRef_cons {t : Token} {r : List Token} {a : Label} (wf : t.WellFormed)
    (target : Target t a) : labelRef ⟨t :: r, l⟩ = .ok a ⟨r, l⟩ := by
  unfold labelRef
  rw [current_bind_apply, TokenStream.current_cons]
  cases target with
  | number literal =>
    rw [literal.kind]
    exact bind_apply_of_ok (integer_apply_of_literal wf literal _)
  | name kind =>
    rw [kind]
    rfl

/-- The condition of a statement, up to and including `THEN`. -/
theorem condition_complete {α : Type} {f : Expr → Parser α} {n : Nat} {h : Token}
    {u r : List Token} {c : Expr} (cond : Expression u c) (thenWord : Word .thenWord h)
    (scanned : TokenStream.Scanned ⟨u ++ h :: r, l⟩) (enough : (u ++ h :: r).length < n) :
    (do let c ← expr n; expect "THEN"; f c : Parser α) ⟨u ++ h :: r, l⟩ = f c ⟨r, l⟩ := by
  have scanned₁ : TokenStream.Scanned ⟨h :: r, l⟩ := scanned.of_append rfl rfl
  have noBinary : NoBinary ((h :: r).headD l) :=
    noBinary_of_kind (by rw [List.headD_cons, thenWord]; simp)
  rw [bind_apply_of_ok (expr_complete cond scanned enough noBinary)]
  exact bind_apply_of_ok (expect_word_cons scanned₁ thenWord)

/-- An `ELSE` behind the first branch of a conditional is taken. -/
theorem accept_else_apply {f : Bool → Parser Stmt} (s : TokenStream) {b : Bool}
    (found : s.current.isSymbol "ELSE" = b) :
    (accept "ELSE" >>= f) s = f b (if b then s.rest else s) := by
  refine bind_apply_of_ok ?_
  rw [accept_apply]
  cases b with
  | true => rw [if_pos found]; rfl
  | false => rw [if_neg (by simp [found])]; rfl

/-- The parser of the statements that begin with the reserved word `k` at `t`, behind this word. -/
def behindWord (n : Nat) (t : Token) (k : Keyword) : Parser Stmt :=
  match k with
  | .printWord => return .print t.pos (← expr (n + 1))
  | .inputWord => return .input t.pos (← identifier)
  | .letWord => do
    let x ← identifier
    expect "="
    return .assign t.pos x (← expr (n + 1))
  | .ifWord => do
    let cond ← expr (n + 1)
    expect "THEN"
    let body ← stmt n
    if ← accept "ELSE" then
      return .ifElse t.pos cond body (← stmt n)
    else
      return .ifThen t.pos cond body
  | .whileWord => do
    let cond ← expr (n + 1)
    expect "THEN"
    return .whileThen t.pos cond (← stmt n)
  | .gotoWord => return .goto t.pos (some (← labelRef))
  | .nopWord => return .nop t.pos
  | .exitWord => return .exit t.pos
  | .thenWord | .elseWord => fail .statement

/-- The reserved word at the front decides which statement is read. -/
theorem stmt_apply_of_word {n : Nat} {t : Token} {k : Keyword} {u : List Token} (word : Word k t)
    (begins : k ≠ .thenWord ∧ k ≠ .elseWord) (scanned : TokenStream.Scanned ⟨t :: u, l⟩)
    (enough : (t :: u).length < n) :
    ∃ m, n = m + 1 ∧ stmt n ⟨t :: u, l⟩ = behindWord m t k ⟨u, l⟩ := by
  obtain ⟨m, rfl⟩ := Nat.exists_eq_add_one.2 (Nat.zero_lt_of_lt enough)
  have kind : t.kind = .keyword k := word
  refine ⟨m, rfl, ?_⟩
  unfold stmt
  rw [current_bind_apply]
  simp only [TokenStream.current_cons, kind]
  cases k with
  | thenWord => exact absurd rfl begins.1
  | elseWord => exact absurd rfl begins.2
  | gotoWord | nopWord | exitWord => exact advance_bind_apply
  | _ => exact bind_apply_of_ok (expect_word_cons scanned word)

/-- By induction on the derivation.  An inner statement stands before `ELSE` or where the outer one
ends, and in both places nothing continues it. -/
theorem stmt_complete {n : Nat} {u r : List Token} {a : Stmt} (derives : Statement u a)
    (scanned : TokenStream.Scanned ⟨u ++ r, l⟩) (enough : (u ++ r).length < n)
    (follow : NoBinary (r.headD l)) (closed : a.isOpen → (r.headD l).isSymbol "ELSE" = false) :
    stmt n ⟨u ++ r, l⟩ = .ok a ⟨r, l⟩ := by
  induction derives generalizing n r with
  | @print t u e word value =>
    obtain ⟨n, rfl, reads⟩ := stmt_apply_of_word word (by decide) scanned enough
    refine reads.trans ?_
    exact bind_apply_of_ok (expr_complete value scanned.rest (Nat.lt_of_succ_lt enough) follow)
  | @input t x word name =>
    obtain ⟨n, rfl, reads⟩ := stmt_apply_of_word word (by decide) scanned enough
    exact reads.trans (bind_apply_of_ok (identifier_cons name))
  | @assign t x q u e word name sign value =>
    obtain ⟨n, rfl, reads⟩ := stmt_apply_of_word word (by decide) scanned enough
    refine reads.trans ((bind_apply_of_ok (identifier_cons name)).trans ?_)
    refine (bind_apply_of_ok (expect_operator_cons sign)).trans ?_
    exact bind_apply_of_ok
      (expr_complete value scanned.rest.rest.rest (by simp at enough ⊢; omega) follow)
  | @ifThen t h u v c s word cond thenWord body ih =>
    have shape : t :: u ++ h :: v ++ r = t :: (u ++ h :: (v ++ r)) := by simp
    rw [shape] at scanned enough ⊢
    obtain ⟨n, rfl, reads⟩ := stmt_apply_of_word word (by decide) scanned enough
    have scanned₁ : TokenStream.Scanned ⟨h :: (v ++ r), l⟩ := scanned.rest.of_append rfl rfl
    have absent := closed rfl
    refine reads.trans
      ((condition_complete cond thenWord scanned.rest (Nat.lt_of_succ_lt enough)).trans ?_)
    refine (bind_apply_of_ok
      (ih scanned₁.rest (by simp at enough ⊢; omega) follow fun _ => absent)).trans ?_
    exact accept_else_apply ⟨r, l⟩ absent
  | @ifElse t h e u v w c s o word cond thenWord body nearest elseWord other ih ih' =>
    have shape : t :: u ++ h :: v ++ e :: w ++ r = t :: (u ++ h :: (v ++ e :: (w ++ r))) := by simp
    rw [shape] at scanned enough ⊢
    obtain ⟨n, rfl, reads⟩ := stmt_apply_of_word word (by decide) scanned enough
    have scanned₁ : TokenStream.Scanned ⟨h :: (v ++ e :: (w ++ r)), l⟩ :=
      scanned.rest.of_append rfl rfl
    have scanned₂ : TokenStream.Scanned ⟨e :: (w ++ r), l⟩ := scanned₁.rest.of_append rfl rfl
    have found : e.isSymbol "ELSE" = true := (scanned₂.isSymbol_spelling .elseWord).2 elseWord
    have noBinary : NoBinary ((e :: (w ++ r)).headD l) :=
      noBinary_of_kind (by rw [List.headD_cons, elseWord]; simp)
    refine reads.trans
      ((condition_complete cond thenWord scanned.rest (Nat.lt_of_succ_lt enough)).trans ?_)
    simp only [List.length_cons, List.length_append] at enough
    refine (bind_apply_of_ok
      (ih scanned₁.rest (by simp; omega) noBinary (by simp [nearest]))).trans ?_
    refine (accept_else_apply ⟨e :: (w ++ r), l⟩ found).trans ?_
    exact bind_apply_of_ok (ih' scanned₂.rest (by simp; omega) follow closed)
  | @whileThen t h u v c s word cond thenWord body ih =>
    have shape : t :: u ++ h :: v ++ r = t :: (u ++ h :: (v ++ r)) := by simp
    rw [shape] at scanned enough ⊢
    obtain ⟨n, rfl, reads⟩ := stmt_apply_of_word word (by decide) scanned enough
    have scanned₁ : TokenStream.Scanned ⟨h :: (v ++ r), l⟩ := scanned.rest.of_append rfl rfl
    refine reads.trans
      ((condition_complete cond thenWord scanned.rest (Nat.lt_of_succ_lt enough)).trans ?_)
    exact bind_apply_of_ok (ih scanned₁.rest (by simp at enough ⊢; omega) follow closed)
  | @goto t x a word target =>
    obtain ⟨n, rfl, reads⟩ := stmt_apply_of_word word (by decide) scanned enough
    exact reads.trans (bind_apply_of_ok (labelRef_cons scanned.rest.current target))
  | @nop t word =>
    obtain ⟨n, rfl, reads⟩ := stmt_apply_of_word word (by decide) scanned enough
    exact reads
  | @exit t word =>
    obtain ⟨n, rfl, reads⟩ := stmt_apply_of_word word (by decide) scanned enough
    exact reads

/-! ## Lines -/

/-- The token ends a line. -/
def EndsLine (t : Token) : Prop := t.kind = .newline ∨ t.kind = .eof

theorem EndsLine.noBinary {t : Token} (ends : EndsLine t) : NoBinary t :=
  noBinary_of_kind (by rcases ends with kind | kind <;> rw [kind] <;> decide)

/-- Where a line ends there is no symbol that a parser could take. -/
theorem EndsLine.isSymbol_eq_false {t : Token} {symbol : String} (ends : EndsLine t)
    (wf : t.WellFormed) (visible : symbol ≠ "\n") (nonempty : symbol ≠ "") :
    t.isSymbol symbol = false := by
  unfold Token.WellFormed at wf
  have text : t.text ≠ symbol := by
    rintro rfl
    rcases ends with kind | kind <;> rw [kind] at wf
    · exact visible wf
    · exact nonempty wf
  simp [Token.isSymbol, text]

/-- Every statement begins with a reserved word. -/
theorem Statement.exists_word {v : List Token} {a : Stmt} (derives : Statement v a) :
    ∃ t v' k, v = t :: v' ∧ Word k t := by
  cases derives <;> exact ⟨_, _, _, rfl, by assumption⟩

/-- A number in front of a statement is a label with a colon or without one, a name only with a
colon. -/
theorem labelDecl_complete {u v r : List Token} {label : Option Label} {a : Stmt}
    (decl : LabelDecl u label) (first : Statement v a)
    (scanned : TokenStream.Scanned ⟨u ++ (v ++ r), l⟩) :
    labelDecl ⟨u ++ (v ++ r), l⟩ = .ok label ⟨v ++ r, l⟩ := by
  obtain ⟨w, v', k, rfl, word⟩ := Statement.exists_word first
  have kind : w.kind = .keyword k := word
  have scanned' : TokenStream.Scanned ⟨w :: v' ++ r, l⟩ := scanned.of_append rfl rfl
  have colon (t : Token) (operator : Operator ":" t) (r : List Token) :
      accept ":" ⟨t :: r, l⟩ = .ok true ⟨r, l⟩ := by
    have found : t.isSymbol ":" = true := by simp [Token.isSymbol, operator.1, operator.2]
    rw [accept_apply, TokenStream.current_cons, if_pos found, TokenStream.rest_cons]
  unfold labelDecl
  rw [current_bind_apply]
  cases decl with
  | none =>
    simp only [List.cons_append, List.nil_append, TokenStream.current_cons, kind]
    rfl
  | @number t n literal =>
    have wf : t.WellFormed := scanned.current
    have absent : accept ":" ⟨w :: v' ++ r, l⟩ = .ok false ⟨w :: v' ++ r, l⟩ := by
      rw [accept_apply, if_neg]
      intro found
      have operator := (scanned'.isSymbol_operator (by simp [operatorSpellings])).1 found
      rw [show TokenStream.current ⟨w :: v' ++ r, l⟩ = w from rfl] at operator
      rw [operator.1] at kind
      cases kind
    simp only [List.cons_append, List.nil_append, TokenStream.current_cons, literal.kind]
    refine (bind_apply_of_ok absent).trans ?_
    exact bind_apply_of_ok (integer_apply_of_literal wf literal _)
  | @numberColon t c n literal operator =>
    have wf : t.WellFormed := scanned.current
    simp only [List.cons_append, List.nil_append, TokenStream.current_cons, literal.kind]
    refine (bind_apply_of_ok (colon c operator _)).trans ?_
    exact bind_apply_of_ok (integer_apply_of_literal wf literal _)
  | @name t c name operator =>
    simp only [List.cons_append, List.nil_append, TokenStream.current_cons, name]
    exact bind_apply_of_ok (colon c operator _)

theorem accept_mark_apply {t : Token} {r : List Token} (mark : Operator "\\" t) :
    accept "\\" ⟨t :: r, l⟩ = .ok true ⟨r, l⟩ := by
  have found : t.isSymbol "\\" = true := by simp [Token.isSymbol, mark.1, mark.2]
  rw [accept_apply, TokenStream.current_cons, if_pos found, TokenStream.rest_cons]

/-- At the end of a line there is no mark between statements. -/
theorem accept_mark_apply_of_endsLine {s : TokenStream} (scanned : s.Scanned)
    (ends : EndsLine s.current) : accept "\\" s = .ok false s := by
  have absent : s.current.isSymbol "\\" = false :=
    ends.isSymbol_eq_false scanned.current (by decide) (by decide)
  rw [accept_apply, if_neg (by simp [absent])]

/-- What follows a statement of a line ends the statement. -/
theorem stmt_complete_of_more {n : Nat} {v w r : List Token} {a : Stmt} {ss : List Stmt}
    (derives : Statement v a) (more : MoreStatements w ss)
    (scanned : TokenStream.Scanned ⟨v ++ (w ++ r), l⟩) (enough : (v ++ (w ++ r)).length < n)
    (ends : EndsLine (r.headD l)) : stmt n ⟨v ++ (w ++ r), l⟩ = .ok a ⟨w ++ r, l⟩ := by
  have scanned' : TokenStream.Scanned ⟨w ++ r, l⟩ := scanned.of_append rfl rfl
  refine stmt_complete derives scanned enough ?_ fun _ => ?_
  · cases more with
    | nil => exact ends.noBinary
    | cons mark _ _ => exact noBinary_of_operator mark rfl
  · cases more with
    | nil => exact ends.isSymbol_eq_false scanned'.current (by decide) (by decide)
    | cons mark _ _ => simp [Token.isSymbol, mark.2]

/-- The loop over the statements of a line reads all of them and stops at the end of the line. -/
theorem stmtsFrom_complete {n : Nat} {w r : List Token} {ss : List Stmt}
    (derives : MoreStatements w ss) (scanned : TokenStream.Scanned ⟨w ++ r, l⟩)
    (enough : (w ++ r).length < n) (ends : EndsLine (r.headD l)) :
    stmtsFrom n ⟨w ++ r, l⟩ = .ok ss ⟨r, l⟩ := by
  induction derives generalizing n with
  | nil =>
    obtain ⟨n, rfl⟩ := Nat.exists_eq_add_one.2 (Nat.zero_lt_of_lt enough)
    unfold stmtsFrom
    exact bind_apply_of_ok (accept_mark_apply_of_endsLine scanned ends)
  | @cons t v w a ss mark first more ih =>
    obtain ⟨n, rfl⟩ := Nat.exists_eq_add_one.2 (Nat.zero_lt_of_lt enough)
    have shape : t :: v ++ w ++ r = t :: (v ++ (w ++ r)) := by simp
    rw [shape] at scanned enough ⊢
    have scanned₁ : TokenStream.Scanned ⟨v ++ (w ++ r), l⟩ := scanned.rest
    have scanned₂ : TokenStream.Scanned ⟨w ++ r, l⟩ := scanned₁.of_append rfl rfl
    simp only [List.length_cons, List.length_append] at enough
    unfold stmtsFrom
    refine (bind_apply_of_ok (accept_mark_apply mark)).trans ?_
    refine (bind_apply_of_ok
      (stmt_complete_of_more first more scanned₁ (by simp; omega) ends)).trans ?_
    exact bind_apply_of_ok (ih scanned₂ (by simp; omega))

/-- A line is read together with the line feed behind it. -/
theorem line_complete {n : Nat} {u r : List Token} {a : Line} (derives : LineBody u a)
    (scanned : TokenStream.Scanned ⟨u ++ r, l⟩) (enough : (u ++ r).length < n)
    (ends : r = [] ∨ (r.headD l).kind = .newline) :
    line n ⟨u ++ r, l⟩ = .ok a ⟨r.tail, l⟩ := by
  obtain ⟨start, decl, first, more⟩ := derives
  rename_i t u v w label s ss
  have current : TokenStream.current ⟨u ++ v ++ w ++ r, l⟩ = t := by
    rw [TokenStream.current]
    cases shape : u ++ v ++ w with
    | nil => rw [shape] at start; cases start
    | cons x xs => rw [shape] at start; cases start; rfl
  have endsLine : EndsLine (r.headD l) := by
    rcases ends with rfl | feed
    · exact .inr scanned.last.2
    · exact .inl feed
  have shape : u ++ v ++ w ++ r = u ++ (v ++ (w ++ r)) := by simp
  unfold line
  rw [current_bind_apply, current]
  rw [shape] at scanned enough ⊢
  have scanned₁ : TokenStream.Scanned ⟨v ++ (w ++ r), l⟩ := scanned.of_append rfl rfl
  have scanned₂ : TokenStream.Scanned ⟨w ++ r, l⟩ := scanned₁.of_append rfl rfl
  have ended : endOfLine ⟨r, l⟩ = .ok () ⟨r.tail, l⟩ := by
    unfold endOfLine
    rw [current_bind_apply]
    rcases ends with rfl | feed
    · have final : l.kind = .eof := scanned.last.2
      rw [TokenStream.current_nil, if_neg (by rw [final]; decide), if_pos final]
      rfl
    · exact (if_pos feed).symm ▸ rfl
  simp only [List.length_append] at enough
  refine (bind_apply_of_ok (labelDecl_complete decl first scanned)).trans ?_
  refine (bind_apply_of_ok
    (stmt_complete_of_more first more scanned₁ (by simp; omega) endsLine)).trans ?_
  refine (bind_apply_of_ok (stmtsFrom_complete more scanned₂ (by simp; omega) endsLine)).trans ?_
  exact bind_apply_of_ok ended

/-! ## Programs -/

/-- No line starts like an empty one or like the end of input. -/
theorem LineBody.exists_start {u : List Token} {a : Line} (derives : LineBody u a) :
    ∃ t u', u = t :: u' ∧ t.kind ≠ .newline ∧ t.kind ≠ .eof := by
  obtain ⟨-, decl, first, -⟩ := derives
  obtain ⟨w, v', k, rfl, word⟩ := Statement.exists_word first
  have kind : w.kind = .keyword k := word
  cases decl with
  | none => exact ⟨w, _, rfl, by rw [kind]; simp, by rw [kind]; simp⟩
  | number literal => exact ⟨_, _, rfl, by rw [literal.kind]; simp, by rw [literal.kind]; simp⟩
  | numberColon literal _ =>
    exact ⟨_, _, rfl, by rw [literal.kind]; simp, by rw [literal.kind]; simp⟩
  | name name _ => exact ⟨_, _, rfl, by rw [name]; simp, by rw [name]; simp⟩

/-- An empty line does not count. -/
theorem program_apply_of_blank {n : Nat} {t : Token} {u : List Token} (feed : t.kind = .newline) :
    program (n + 1) ⟨t :: u, l⟩ = program (n + 1) ⟨u, l⟩ := by
  have skipped : skipNewlines ⟨t :: u, l⟩ = skipNewlines ⟨u, l⟩ := by
    change EStateM.Result.ok () (TokenStream.mk ((t :: u).dropWhile _) l) = _
    rw [List.dropWhile_cons_of_pos (by simp [feed])]
    rfl
  unfold program
  exact (bind_apply_of_ok skipped).trans (bind_apply_of_ok rfl).symm

/-- One round of the loop over the lines, at the start of a line. -/
theorem program_apply_of_line {n : Nat} {u r : List Token} {a : Line} (derives : LineBody u a)
    (scanned : TokenStream.Scanned ⟨u ++ r, l⟩) (enough : (u ++ r).length < n + 1)
    (ends : r = [] ∨ (r.headD l).kind = .newline) :
    program (n + 1) ⟨u ++ r, l⟩ = (do return a :: (← program n) : Parser _) ⟨r.tail, l⟩ := by
  have read := line_complete derives scanned enough ends
  obtain ⟨t, u', rfl, visible, inside⟩ := LineBody.exists_start derives
  have skipped : skipNewlines ⟨t :: u' ++ r, l⟩ = .ok () ⟨t :: u' ++ r, l⟩ := by
    change EStateM.Result.ok () (TokenStream.mk ((t :: (u' ++ r)).dropWhile _) l) = _
    rw [List.dropWhile_cons_of_neg (by simp [visible])]
    rfl
  refine Eq.trans (bind_apply_of_ok skipped) ?_
  rw [current_bind_apply, List.cons_append, TokenStream.current_cons, if_neg inside]
  exact bind_apply_of_ok read

/-- By induction on the derivation of the lines, of which each takes one round. -/
theorem program_complete {n : Nat} {u : List Token} {ls : List Line} (derives : Lines u ls)
    (scanned : TokenStream.Scanned ⟨u, l⟩) (enough : u.length < n) :
    program n ⟨u, l⟩ = .ok ls ⟨[], l⟩ := by
  have final : l.kind = .eof := scanned.last.2
  induction derives generalizing n with
  | nil => exact program_apply_of_end n final
  | blank feed more ih =>
    obtain ⟨n, rfl⟩ := Nat.exists_eq_add_one.2 (Nat.zero_lt_of_lt enough)
    rw [program_apply_of_blank feed]
    exact ih scanned.rest (Nat.lt_of_succ_lt enough)
  | @last u a body =>
    obtain ⟨n, rfl⟩ := Nat.exists_eq_add_one.2 (Nat.zero_lt_of_lt enough)
    rw [← List.append_nil u] at scanned enough ⊢
    refine (program_apply_of_line body scanned enough (.inl rfl)).trans ?_
    exact bind_apply_of_ok (program_apply_of_end n final)
  | @cons t u v a ls body feed more ih =>
    obtain ⟨n, rfl⟩ := Nat.exists_eq_add_one.2 (Nat.zero_lt_of_lt enough)
    have scanned' : TokenStream.Scanned ⟨t :: v, l⟩ := scanned.of_append rfl rfl
    refine (program_apply_of_line body scanned enough (.inr feed)).trans ?_
    refine bind_apply_of_ok (ih scanned'.rest ?_)
    simp only [List.length_append, List.length_cons] at enough
    omega

end GotoBasic.Parser
