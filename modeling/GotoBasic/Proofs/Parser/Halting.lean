import GotoBasic.Proofs.Parser.Follows

/-!
# Parsing any tokens comes to an end

Tokens made by hand may have kinds and texts that do not fit.  The end of input is a place where
such tokens could make the parser run in circles: it is never passed, but its text may be that of a
reserved word or an operator.  Still every loop and every nested part takes a token or fails, with
one exception: an end of input that is spelled as an opening parenthesis.  Each production gets one
lemma, which says that its walk follows its parser of streams, by which clocks, and whether a
success takes tokens.  An expression takes four calls to come to what stands between parentheses, so
the clock that is needed is four times the number of tokens left, and a little more.  Together the
lemmas say that a walk over a token list halts (`Walk.parse_halts`).
-/

namespace GotoBasic.Walk

variable {x : Tape} {tier : BinaryOp → Bool} {operand : Nat → Walk Expr}
  {F : Nat → Expr → Walk Expr} {p : Parser Expr} {i n d clock : Nat}

/-! ## Expressions -/

theorem kind_ne_of_binaryOp? {t : Token} {op : BinaryOp} (found : t.binaryOp? tier = some op) :
    t.kind ≠ .eof := by
  unfold Token.binaryOp? at found
  dsimp only at found
  split at found
  next operator => simp [operator.1]
  · cases found

theorem kind_ne_of_unaryOp? {t : Token} {op : UnaryOp} (found : t.unaryOp? = some op) :
    t.kind ≠ .eof := by
  unfold Token.unaryOp? at found
  dsimp only at found
  split at found
  next operator => simp [operator.1]
  · cases found

/-- From the index `i` on, walks over an operand follow the parser `p` and take tokens, by every
clock that has four ticks for each token left and `d` more. -/
def Operands (x : Tape) (d : Nat) (operand : Nat → Walk Expr) (p : Parser Expr) (i : Nat) : Prop :=
  ∀ clock j, i ≤ j → j ≤ x.inside.length → 4 * x.inside.length + d ≤ 4 * j + clock →
    Follows x (operand clock) p j (j + 1)

theorem Operands.behind {j : Nat} (operands : Operands x d operand p i) (above : i ≤ j) :
    Operands x d operand p j := by
  intro clock k above'
  exact operands clock k (Nat.le_trans above above')

section Chains

variable
  (step : ∀ left clock, F (clock + 1) left = do
    match (← current x.tokens).binaryOp? tier with
    | none => return left
    | some op =>
      advance x.tokens
      let right ← operand clock
      F clock (.binary left.pos op left right))
  (operands : Operands x d operand p i) (little : d ≤ 4)
  (within : i ≤ x.inside.length) (enough : x.inside.length < i + n)

include step operands little within enough

/-- Every link of a chain takes tokens, so a chain ends. -/
theorem chainFrom_follows (time : 4 * x.inside.length < 4 * i + clock) (left : Expr) :
    Follows x (F clock left) (Parser.chainFrom tier p n left) i i := by
  induction n generalizing i clock left with
  | zero => exact absurd within (Nat.not_le_of_lt enough)
  | succ n ih =>
    cases clock with
    | zero => omega
    | succ clock =>
      rw [step, Parser.chainFrom]
      refine .current_bind within ?_
      cases found : (x.token i).binaryOp? tier with
      | none => exact .pure within left
      | some op =>
        have inside := kind_ne_of_binaryOp? found
        refine (Follows.advance_of_ne inside).bind fun _ j above further within' => ?_
        refine (operands clock j above within' (by omega)).bind fun right k _ further' within => ?_
        have later : 4 * x.inside.length < 4 * k + clock := by omega
        have rest := ih (operands.behind (by omega)) within (by omega) later
          (.binary left.pos op left right)
        exact rest.mono (by omega)

theorem chain_follows (time : 4 * x.inside.length + d ≤ 4 * i + clock) :
    Follows x (operand clock >>= F clock) (Parser.chain tier n p) i (i + 1) := by
  refine (operands clock i (Nat.le_refl i) within time).bind fun left j above further within' => ?_
  refine (chainFrom_follows step (operands.behind above) little within' (by omega) ?_ left).mono ?_
  · omega
  · omega

end Chains

/-- A literal, a variable or a group, whatever stands between the parentheses. -/
theorem primary_follows
    (inner : ∀ j, i < j → j ≤ x.inside.length → Follows x (expr x.tokens clock) p j (j + 1))
    (within : i ≤ x.inside.length) :
    Follows x (primary x.tokens (clock + 1)) (Parser.primary p) i (i + 1) := by
  -- A token of any kind but the end of input is passed, and then its value is read.
  have literal {w : Walk Expr} {q : Parser Expr} (inside : (x.token i).kind ≠ .eof)
      (value : ∀ j, j ≤ x.inside.length → Follows x w q j j) :
      Follows x (advance x.tokens >>= fun _ => w) (Parser.advance >>= fun _ => q) i (i + 1) := by
    refine (Follows.advance_of_ne inside).bind fun _ j _ further within => ?_
    exact (value j within).mono further
  have group : Follows x
      (if (x.token i).isSymbol "(" then do
        advance x.tokens
        let e ← expr x.tokens clock
        expect x.tokens ")"
        return e
      else fail x.tokens .expression)
      (if (x.token i).isSymbol "(" then do
        Parser.advance
        let e ← p
        Parser.expect ")"
        return e
      else Parser.fail .expression) i (i + 1) := by
    split
    next opens =>
      have inside := x.kind_ne_of_parenthesis opens
      refine (Follows.advance_of_ne inside).bind fun _ j _ further within => ?_
      refine (inner j further within).bind fun e k _ further' within => ?_
      refine (Follows.expect within).bind fun _ k' above _ within => ?_
      exact (Follows.pure within e).mono (by omega)
    next other => exact .fail within
  rw [primary]
  unfold Parser.primary
  refine .current_bind within ?_
  cases kind : (x.token i).kind with
  | int =>
    exact literal (by simp [kind]) fun j within => (Follows.integer within kind).bind_pure
  | float =>
    exact literal (by simp [kind]) fun j within => (Follows.double within kind).bind_pure
  | string => exact literal (by simp [kind]) fun j within => .pure within _
  | bool => exact literal (by simp [kind]) fun j within => .pure within _
  | ident => exact literal (by simp [kind]) fun j within => .pure within _
  | op => exact group
  | newline => exact group
  | eof => exact group
  | keyword k => exact group
  | other name => exact group

section Tiers

variable (operands : Operands x 2 (unary x.tokens) p i)

include operands

theorem arith_operands (enough : x.inside.length < i + n) :
    Operands x 3 (arith x.tokens) (Parser.arithOf n p) i := by
  intro clock j above within time
  cases clock with
  | zero => omega
  | succ clock =>
    rw [arith]
    exact chain_follows (arithFrom.eq_2 x.tokens) (operands.behind above) (by omega) within
      (by omega) (by omega)

theorem expr_operands (enough : x.inside.length < i + n) :
    Operands x 4 (expr x.tokens) (Parser.exprOf n p) i := by
  intro clock j above within time
  cases clock with
  | zero => omega
  | succ clock =>
    rw [expr]
    exact chain_follows (exprFrom.eq_2 x.tokens) ((arith_operands operands enough).behind above)
      (by omega) within (by omega) (by omega)

end Tiers

/-- Operators and parentheses take tokens, so operands nest no deeper than there are tokens. -/
theorem unary_follows (within : i ≤ x.inside.length) (enough : x.inside.length < i + n)
    (time : 4 * x.inside.length + 2 ≤ 4 * i + clock) :
    Follows x (unary x.tokens clock) (Parser.unary n) i (i + 1) := by
  induction n generalizing i clock with
  | zero => exact absurd within (Nat.not_le_of_lt enough)
  | succ n ih =>
    -- One tick is for the operand itself, one for what it is when no operator stands before it.
    obtain ⟨clock, rfl⟩ : ∃ c, clock = c + 2 := ⟨clock - 2, by omega⟩
    rw [unary, Parser.unary]
    refine .current_bind within ?_
    cases found : (x.token i).unaryOp? with
    | some op =>
      refine (Follows.advance_of_ne (kind_ne_of_unaryOp? found)).bind fun _ j _ above within => ?_
      exact (ih within (by omega) (by omega)).bind_pure.mono (by omega)
    | none =>
      refine primary_follows (fun j above within => ?_) within
      have operands : Operands x 2 (unary x.tokens) (Parser.unary n) j := by
        intro clock k above' within time
        exact ih within (by omega) time
      exact expr_operands operands (by omega) clock j (Nat.le_refl j) within (by omega)

theorem expr_follows (within : i ≤ x.inside.length) (enough : x.inside.length < i + n)
    (time : 4 * x.inside.length + 4 ≤ 4 * i + clock) :
    Follows x (expr x.tokens clock) (Parser.expr n) i (i + 1) := by
  have operands : Operands x 2 (unary x.tokens) (Parser.unary n) i := by
    intro clock j above within time
    exact unary_follows within (by omega) time
  exact expr_operands operands enough clock i (Nat.le_refl i) within time

/-! ## Statements -/

theorem labelRef_follows (within : i ≤ x.inside.length) :
    Follows x (labelRef x.tokens) Parser.labelRef i i := by
  unfold labelRef Parser.labelRef
  refine .current_bind within ?_
  have refused : Follows x (fail x.tokens .lineLabel : Walk Label) (Parser.fail .lineLabel) i i :=
    .fail within
  cases kind : (x.token i).kind with
  | int =>
    refine (Follows.advance within).bind fun _ j _ above within => ?_
    exact (Follows.integer within kind).bind_pure.mono above
  | ident => exact (Follows.advance within).bind_pure
  | _ => exact refused

/-- Reserved words take tokens, so statements nest no deeper than there are tokens. -/
theorem stmt_follows (within : i ≤ x.inside.length) (enough : x.inside.length < i + n)
    (time : 4 * x.inside.length < 4 * i + clock) :
    Follows x (stmt x.tokens clock) (Parser.stmt n) i (i + 1) := by
  induction n generalizing i clock with
  | zero => exact absurd within (Nat.not_le_of_lt enough)
  | succ n ih =>
    obtain ⟨clock, rfl⟩ : ∃ c, clock = c + 1 := Nat.exists_eq_succ_of_ne_zero (by omega)
    rw [stmt, Parser.stmt]
    refine .current_bind within ?_
    have refused : Follows x (fail x.tokens .statement : Walk Stmt) (Parser.fail .statement) i
        (i + 1) := .fail within
    cases kind : (x.token i).kind with
    | keyword k =>
      have inside : (x.token i).kind ≠ .eof := by simp [kind]
      cases k with
      | printWord =>
        refine (Follows.expect_of_ne inside).bind fun _ j _ above within => ?_
        exact (expr_follows within (by omega) (by omega)).bind_pure.mono (by omega)
      | inputWord =>
        refine (Follows.expect_of_ne inside).bind fun _ j _ above within => ?_
        exact (Follows.identifier within).bind_pure.mono (by omega)
      | letWord =>
        refine (Follows.expect_of_ne inside).bind fun _ j _ above within => ?_
        refine (Follows.identifier within).bind fun e k _ above' within => ?_
        refine (Follows.expect within).bind fun _ k₂ _ above₂ within => ?_
        exact (expr_follows within (by omega) (by omega)).bind_pure.mono (by omega)
      | ifWord =>
        refine (Follows.expect_of_ne inside).bind fun _ j _ above within => ?_
        refine (expr_follows within (by omega) (by omega)).bind fun e k _ above' within => ?_
        refine (Follows.expect within).bind fun _ k₂ _ above₂ within => ?_
        refine (ih within (by omega) (by omega)).bind fun body k₃ _ above₃ within => ?_
        refine (Follows.accept within).bind fun found k₄ _ above₄ within => ?_
        split
        · exact (ih within (by omega) (by omega)).bind_pure.mono (by omega)
        · exact (Follows.pure within _).mono (by omega)
      | whileWord =>
        refine (Follows.expect_of_ne inside).bind fun _ j _ above within => ?_
        refine (expr_follows within (by omega) (by omega)).bind fun e k _ above' within => ?_
        refine (Follows.expect within).bind fun _ k₂ _ above₂ within => ?_
        exact (ih within (by omega) (by omega)).bind_pure.mono (by omega)
      | gotoWord =>
        refine (Follows.advance_of_ne inside).bind fun _ j _ above within => ?_
        exact (labelRef_follows within).bind_pure.mono (by omega)
      | nopWord => exact (Follows.advance_of_ne inside).bind_pure
      | exitWord => exact (Follows.advance_of_ne inside).bind_pure
      | _ => exact refused
    | _ => exact refused

/-! ## Lines -/

theorem labelDecl_follows (within : i ≤ x.inside.length) :
    Follows x (labelDecl x.tokens) Parser.labelDecl i i := by
  unfold labelDecl Parser.labelDecl
  refine .current_bind within ?_
  have unlabelled : Follows x (Pure.pure none : Walk (Option Label)) (Pure.pure none) i i :=
    .pure within none
  cases kind : (x.token i).kind with
  | int =>
    refine (Follows.advance within).bind fun _ j _ above within => ?_
    refine (Follows.accept within).bind fun _ k _ above' within => ?_
    exact (Follows.integer within kind).bind_pure.mono (by omega)
  | ident =>
    refine (Follows.advance within).bind fun _ j _ above within => ?_
    refine (Follows.accept within).bind fun found k _ above' within => ?_
    split
    · exact (Follows.pure within _).mono (by omega)
    · exact .fail within
  | _ => exact unlabelled

/-- A backslash that is the end of input stays, but no statement is there. -/
theorem stmtsFrom_follows (within : i ≤ x.inside.length) (enough : x.inside.length < i + n)
    (time : 4 * x.inside.length + 2 ≤ 4 * i + clock) :
    Follows x (stmtsFrom x.tokens clock) (Parser.stmtsFrom n) i i := by
  induction n generalizing i clock with
  | zero => exact absurd within (Nat.not_le_of_lt enough)
  | succ n ih =>
    obtain ⟨clock, rfl⟩ : ∃ c, clock = c + 1 := Nat.exists_eq_succ_of_ne_zero (by omega)
    rw [stmtsFrom, Parser.stmtsFrom]
    refine (Follows.accept within).bind fun found j _ above within => ?_
    split
    · refine (stmt_follows within (by omega) (by omega)).bind fun s k _ above' within => ?_
      exact (ih within (by omega) (by omega)).bind_pure.mono (by omega)
    · exact (Follows.pure within _).mono above

theorem endOfLine_follows (within : i ≤ x.inside.length) :
    Follows x (endOfLine x.tokens) Parser.endOfLine i i := by
  refine .current_bind within ?_
  split
  · exact .advance within
  split
  · exact .pure within ()
  · exact .fail within

theorem line_follows (within : i ≤ x.inside.length) (enough : x.inside.length < i + n)
    (time : 4 * x.inside.length + 2 ≤ 4 * i + clock) :
    Follows x (line x.tokens clock) (Parser.line n) i (i + 1) := by
  refine .current_bind within ?_
  refine (labelDecl_follows within).bind fun label j _ above within => ?_
  refine (stmt_follows within (by omega) (by omega)).bind fun s k _ above' within => ?_
  refine (stmtsFrom_follows within (by omega) (by omega)).bind fun ss k₂ _ above₂ within => ?_
  exact (endOfLine_follows within).bind_pure.mono (by omega)

/-- Line feeds are passed one after the other. -/
theorem skipNewlines_apply {s : TokenStream} (other : s.last.kind ≠ .newline) :
    Parser.skipNewlines s = (do
      if (← Parser.current).kind = .newline then
        Parser.advance
        Parser.skipNewlines
      else return () : Parser Unit) s := by
  obtain ⟨pending, last⟩ := s
  rw [Parser.current_bind_apply]
  cases pending with
  | nil =>
    rw [TokenStream.current_nil, if_neg other]
    rfl
  | cons t r =>
    have skipped : Parser.skipNewlines ⟨t :: r, last⟩ =
        .ok () ⟨(t :: r).dropWhile fun t => t.kind = .newline, last⟩ := rfl
    rw [skipped, TokenStream.current_cons]
    split
    next feed =>
      rw [List.dropWhile_cons_of_pos (by simpa using feed)]
      rfl
    next visible =>
      rw [List.dropWhile_cons_of_neg (by simpa using visible)]
      rfl

theorem skipNewlines_follows (within : i ≤ x.inside.length)
    (time : x.inside.length < i + clock) :
    Follows x (skipNewlines x.tokens clock) Parser.skipNewlines i i := by
  induction clock generalizing i with
  | zero => exact absurd within (Nat.not_le_of_lt time)
  | succ clock ih =>
    have other : (x.stream i).last.kind ≠ .newline := by
      simp [Tape.stream, x.final]
    rw [skipNewlines]
    refine Follows.congr (skipNewlines_apply other) (.current_bind within ?_)
    split
    next feed =>
      have inside : (x.token i).kind ≠ .eof := by simp [feed]
      refine (Follows.advance_of_ne inside).bind fun _ j _ above within => ?_
      exact (ih within (by omega)).mono (by omega)
    next visible => exact .pure within ()

theorem program_follows (within : i ≤ x.inside.length) (enough : x.inside.length < i + n)
    (time : 4 * x.inside.length + 3 ≤ 4 * i + clock) :
    Follows x (program x.tokens clock) (Parser.program n) i i := by
  induction n generalizing i clock with
  | zero => exact absurd within (Nat.not_le_of_lt enough)
  | succ n ih =>
    obtain ⟨clock, rfl⟩ : ∃ c, clock = c + 1 := Nat.exists_eq_succ_of_ne_zero (by omega)
    rw [program, Parser.program]
    refine (skipNewlines_follows within (by omega)).bind fun _ j _ above within => ?_
    refine .current_bind within ?_
    split
    · exact (Follows.pure within _).mono above
    · refine (line_follows within (by omega) (by omega)).bind fun l k _ above' within => ?_
      exact (ih within (by omega) (by omega)).bind_pure.mono (by omega)

/-! ## Token lists -/

section Outcome

variable {α : Type} {w : Walk α} {q : Parser α} {m j k : Nat}

/-- The place that a walk has reached when a parser of streams has come to a stream. -/
def Tape.place (x : Tape) (m : Nat) (s : TokenStream) : Place :=
  let j := x.inside.length - s.pending.length
  ⟨j, max m j⟩

/-- What a walk ends with where a parser of streams has a result. -/
def Tape.outcome (x : Tape) (m : Nat) :
    EStateM.Result ParseError TokenStream α → Except Stop α × Place
  | .ok a s => (.ok a, x.place m s)
  | .error e s => (.error (Stop.of e), x.place m s)

theorem Tape.place_stream (within : j ≤ x.inside.length) :
    x.place m (x.stream j) = ⟨j, max m j⟩ := by
  have same : x.inside.length - (x.inside.drop j).length = j := by
    rw [List.length_drop]
    omega
  unfold place stream
  rw [same]

theorem Follows.apply (follows : Follows x w q i k) (start : i ≤ m) :
    w ⟨i, m⟩ = some (x.outcome m (q (x.stream i))) := by
  cases result : q (x.stream i) with
  | ok a s =>
    obtain ⟨j, rfl, -, -, within, halts⟩ := follows.ok result
    rw [halts m start, Tape.outcome, x.place_stream within]
  | error e s =>
    obtain ⟨-, j, rfl, -, within, halts⟩ := follows.error result
    rw [halts m start, Tape.outcome, x.place_stream within]

/-- A walk stays up to the end of input, and a success moves its index as far as it should. -/
theorem Follows.place_outcome (follows : Follows x w q i k) (within : m ≤ x.inside.length) :
    let outcome := x.outcome m (q (x.stream i))
    outcome.2.index ≤ outcome.2.farthest ∧ outcome.2.farthest ≤ x.inside.length ∧
      ∀ a, outcome.1 = .ok a → k ≤ outcome.2.index := by
  cases result : q (x.stream i) with
  | ok a s =>
    obtain ⟨j, rfl, -, progress, within', -⟩ := follows.ok result
    rw [Tape.outcome, x.place_stream within']
    exact ⟨Nat.le_max_right m j, Nat.max_le.2 ⟨within, within'⟩, fun _ _ => progress⟩
  | error e s =>
    obtain ⟨-, j, rfl, -, within', -⟩ := follows.error result
    rw [Tape.outcome, x.place_stream within']
    exact ⟨Nat.le_max_right m j, Nat.max_le.2 ⟨within, within'⟩, nofun⟩

end Outcome

/-- The clock that lets a walk over these tokens and an end of input come to its answer. -/
def deepest (u : List Token) : Nat := 4 * u.length + 3

theorem program_follows_bound (time : deepest x.inside ≤ clock) :
    Follows x (program x.tokens clock) (Parser.program (x.stream 0).bound) 0 0 := by
  refine program_follows (Nat.zero_le _) ?_ ?_
  · change x.inside.length < 0 + (x.inside.length + 1)
    omega
  · unfold deepest at time
    omega

/-- A list with an end of input is walked over as the stream up to there is parsed. -/
theorem parse_tokens (x : Tape) (time : deepest x.inside ≤ clock) :
    parse x.tokens clock = some (x.outcome 0 (Parser.program (x.stream 0).bound (x.stream 0))) :=
  (program_follows_bound time).apply (Nat.le_refl 0)

/-- The answer of a walk is that of the parser of streams.  It is a parse error, or about a float
token before the end of input whose text is no number. -/
def Agrees (u : List Token) (parsed : Except ParseError (List Line)) :
    Except Stop (List Line) → Prop
  | .ok ls => parsed = .ok ls
  | .error (.refused e) => parsed = .error e ∧ ∀ t, e ≠ .malformedFloat t
  | .error (.notNumber t) =>
    parsed = .error (.malformedFloat t) ∧ t ∈ u ∧ t.kind = .float ∧
      Binary64.ofText? t.text.toList = none
  | .error (.noToken _) => False

theorem agrees_of_explains {e : ParseError} (explains : x.Explains e) :
    Agrees x.inside (.error e) (.error (Stop.of e)) := by
  cases e with
  | expected wanted t => exact ⟨rfl, fun _ => nofun⟩
  | integerTooLong t => exact ⟨rfl, fun _ => nofun⟩
  | malformedFloat t => exact ⟨rfl, explains⟩

theorem agrees_outcome (x : Tape) :
    Agrees x.inside (parseTokens x.tokens)
      (x.outcome 0 (Parser.program (x.stream 0).bound (x.stream 0))).1 := by
  have stream : TokenStream.ofTokens x.tokens = x.stream 0 :=
    TokenStream.ofTokens_append_eof x.noEof x.final x.behind
  cases result : Parser.program (x.stream 0).bound (x.stream 0) with
  | ok ls s => simp only [parseTokens, stream, result, Tape.outcome, Agrees]
  | error e s =>
    have follows := program_follows_bound (x := x) (Nat.le_refl _)
    have agrees := agrees_of_explains (follows.error result).1
    simpa only [parseTokens, stream, result, Tape.outcome] using agrees

/-- A walk over the tokens `u` and the end of input `l` halts. -/
structure HaltsAt (u : List Token) (l : Token) : Prop where
  /-- There is one answer, whatever stands behind the end of input, and a walk comes to it without
  passing the end of input. -/
  answer : ∃ answer place, place.farthest ≤ u.length ∧ ∀ v,
    Agrees u (parseTokens (u ++ l :: v)) answer ∧
      ∀ clock, deepest u ≤ clock → parse (u ++ l :: v) clock = some (answer, place)
  /-- A line is read or refused wherever a walk may be, and a line that is read takes tokens. -/
  line : ∀ p, p.index ≤ p.farthest → p.farthest ≤ u.length → ∃ answer q,
    q.index ≤ q.farthest ∧ q.farthest ≤ u.length ∧ (∀ a, answer = .ok a → p.index < q.index) ∧
      ∀ v clock, deepest u ≤ clock → line (u ++ l :: v) clock p = some (answer, q)

theorem line_follows_bound {p : Place} (start : p.index ≤ p.farthest)
    (within : p.farthest ≤ x.inside.length) (time : deepest x.inside ≤ clock) :
    Follows x (line x.tokens clock) (Parser.line (x.inside.length + 1)) p.index (p.index + 1) := by
  unfold deepest at time
  exact line_follows (Nat.le_trans start within) (by omega) (by omega)

/-- A walk over any tokens with an end of input halts, if their first end of input is not spelled as
a parenthesis.  It never passes this end of input and does not depend on what stands behind it, it
answers as the parser of streams does, and every line that is read takes tokens. -/
theorem parse_halts {u : List Token} {l : Token} (inside : ∀ t ∈ u, t.kind ≠ .eof)
    (final : l.kind = .eof) (other : l.text ≠ "(") : HaltsAt u l := by
  -- What stands behind the end of input is part of a tape, but not of its streams.
  let tape (v : List Token) : Tape := ⟨u, l, v, inside, final, other⟩
  let stream := (tape []).stream
  constructor
  · let outcome := (tape []).outcome 0 (Parser.program (stream 0).bound (stream 0))
    have follows := program_follows_bound (x := tape []) (Nat.le_refl _)
    obtain ⟨-, within, -⟩ := follows.place_outcome (Nat.zero_le _)
    refine ⟨outcome.1, outcome.2, within, fun v => ⟨agrees_outcome (tape v), ?_⟩⟩
    intro clock time
    exact parse_tokens (tape v) time
  · intro p start within
    let outcome := (tape []).outcome p.farthest (Parser.line (u.length + 1) (stream p.index))
    have follows := line_follows_bound (x := tape []) start within (Nat.le_refl _)
    obtain ⟨below, within', progress⟩ := follows.place_outcome within
    refine ⟨outcome.1, outcome.2, below, within', progress, fun v clock time => ?_⟩
    exact (line_follows_bound (x := tape v) start within time).apply start

/-- A list of tokens whose kinds and texts do not fit.  Its end of input is spelled as a reserved
word that the parser passes without moving. -/
theorem parse_halts_else :
    let u : List Token := [⟨.keyword .ifWord, "IF", ⟨1, 1⟩⟩, ⟨.int, "1_0", ⟨1, 4⟩⟩,
      ⟨.bool, "THEN", ⟨1, 6⟩⟩, ⟨.keyword .nopWord, ")", ⟨1, 9⟩⟩]
    let l : Token := ⟨.eof, "ELSE", ⟨2, 1⟩⟩
    (∀ t ∈ u, t.kind ≠ .eof) ∧ l.kind = .eof ∧ l.text ≠ "(" ∧ HaltsAt u l := by
  intro u l
  have inside : ∀ t ∈ u, t.kind ≠ .eof := by decide
  have final : l.kind = .eof := rfl
  have other : l.text ≠ "(" := by decide
  exact ⟨inside, final, other, parse_halts inside final other⟩

/-- The text of a float token need not be a number, and then the walk ends without a parse error. -/
theorem parse_not_number :
    ∃ enough, ∀ clock, enough ≤ clock →
      parse [⟨.keyword .printWord, "PRINT", ⟨1, 1⟩⟩, ⟨.float, "1._5", ⟨1, 2⟩⟩,
          ⟨.eof, "", ⟨1, 3⟩⟩] clock =
        some (.error (.notNumber ⟨.float, "1._5", ⟨1, 2⟩⟩), ⟨2, 2⟩) := by
  refine ⟨11, fun clock time => ?_⟩
  exact parse_tokens ⟨[⟨.keyword .printWord, "PRINT", ⟨1, 1⟩⟩, ⟨.float, "1._5", ⟨1, 2⟩⟩],
    ⟨.eof, "", ⟨1, 3⟩⟩, [], by decide, rfl, by decide⟩ time

end GotoBasic.Walk
