import GotoBasic.Proofs.Parser.Run

/-!
# Walking over a token list

The parser as a walk over a list of any tokens: an index goes up, and loops and nested parts go on
for as long as their tokens say.  So a walk may run for ever, it may ask for a token where there is
none, and it may see what stands behind the end of input.

A clock limits how deep calls and the rounds of loops go.  A walk that its clock stops has no answer
at all, so it is not taken for one that fails.  A walk halts if some clock lets it come to an
answer, and then every longer clock lets it come to the same one (`Walk.parse_mono`).
-/

namespace GotoBasic

/-- Where a walk is, and the largest index at which it has been. -/
structure Walk.Place where
  index : Nat
  farthest : Nat
  deriving DecidableEq, Repr

/-- Why a walk stops early. -/
inductive Walk.Stop where
  /-- A parse error, with a position. -/
  | refused (e : ParseError)
  /-- The text of a float token is no number, which no parse error says. -/
  | notNumber (literal : Token)
  /-- There is no token at the index. -/
  | noToken (index : Nat)
  deriving DecidableEq, Repr

/-- A walk from a place to a result or a reason to stop, if its clock lets it come to that. -/
abbrev Walk (α : Type) := ExceptT Walk.Stop (StateT Walk.Place Option) α

namespace Walk

section Steps

/-- The clock has run out. -/
def unfinished {α : Type} : Walk α := fun _ => none

variable (ts : List Token)

/-- The token at the index.  Beyond the list there is none, and that is no parse error. -/
def current : Walk Token := do
  let p ← get
  match ts[p.index]? with
  | some t => return t
  | none => throw (.noToken p.index)

/-- Moves the index, unless it is at an end of input. -/
def advance : Walk Unit := do
  if (← current ts).kind = .eof then return ()
  else modify fun p => ⟨p.index + 1, max p.farthest (p.index + 1)⟩

/-- Refuses the token at the index, if there is one. -/
def fail {α : Type} (wanted : Wanted) : Walk α := do
  throw (.refused (.expected wanted (← current ts)))

/-- Passes the symbol `s`, which has to be there. -/
def expect (s : String) : Walk Unit := do
  if (← current ts).isSymbol s then advance ts else fail ts (.symbol s)

/-- Passes the symbol `s` if it is there, and tells whether it was. -/
def accept (s : String) : Walk Bool := do
  if (← current ts).isSymbol s then
    advance ts
    return true
  else
    return false

/-- The text of an identifier, which is passed. -/
def identifier : Walk String := do
  let t ← current ts
  if t.kind = .ident then
    advance ts
    return t.text
  else
    fail ts .identifier

/-- The value of the digits of an integer token, which has been passed. -/
def integer (t : Token) : Walk Int :=
  match Decimal.integer? t.text.toList with
  | some n => return n
  | none => throw (.refused (.integerTooLong t))

/-- The value of a float token, which has been passed.  Only a token that no text has can fail here.
-/
def double (t : Token) : Walk Binary64 :=
  match Binary64.ofText? t.text.toList with
  | some x => return x
  | none => throw (.notNumber t)

/-! ## Expressions -/

mutual

/-- More operands of the tier of comparisons and logic behind `left`. -/
def exprFrom : Nat → Expr → Walk Expr
  | 0, _ => unfinished
  | clock + 1, left => do
    match (← current ts).binaryOp? BinaryOp.isLogic with
    | none => return left
    | some op =>
      advance ts
      let right ← arith clock
      exprFrom clock (.binary left.pos op left right)

/-- An expression: the tier of comparisons and logic, which binds weakest. -/
def expr : Nat → Walk Expr
  | 0 => unfinished
  | clock + 1 => do
    let left ← arith clock
    exprFrom clock left

/-- More operands of the tier of arithmetic behind `left`. -/
def arithFrom : Nat → Expr → Walk Expr
  | 0, _ => unfinished
  | clock + 1, left => do
    match (← current ts).binaryOp? BinaryOp.isArith with
    | none => return left
    | some op =>
      advance ts
      let right ← unary clock
      arithFrom clock (.binary left.pos op left right)

/-- The tier of arithmetic, whose operators all bind alike and to the left. -/
def arith : Nat → Walk Expr
  | 0 => unfinished
  | clock + 1 => do
    let left ← unary clock
    arithFrom clock left

/-- Signs and negations, and what they stand before. -/
def unary : Nat → Walk Expr
  | 0 => unfinished
  | clock + 1 => do
    let t ← current ts
    match t.unaryOp? with
    | some op =>
      advance ts
      return .unary t.pos op (← unary clock)
    | none => primary clock

/-- An expression without an operator in front: a literal, a variable or a group. -/
def primary : Nat → Walk Expr
  | 0 => unfinished
  | clock + 1 => do
    let t ← current ts
    match t.kind with
    | .int =>
      advance ts
      return .int t.pos (← integer t)
    | .float =>
      advance ts
      return .float t.pos (← double t)
    | .string =>
      advance ts
      return .string t.pos t.text
    | .bool =>
      advance ts
      return .bool t.pos (t.text == "#t")
    | .ident =>
      advance ts
      return .var t.pos t.text
    | _ =>
      if t.isSymbol "(" then
        advance ts
        let e ← expr clock
        expect ts ")"
        return e
      else
        fail ts .expression

end

/-! ## Statements and lines -/

/-- The target of a jump. -/
def labelRef : Walk Label := do
  let t ← current ts
  match t.kind with
  | .int =>
    advance ts
    return .num (← integer t)
  | .ident =>
    advance ts
    return .name t.text
  | _ => fail ts .lineLabel

/-- A statement.  The clock limits how deep statements nest. -/
def stmt : Nat → Walk Stmt
  | 0 => unfinished
  | clock + 1 => do
    let t ← current ts
    match t.kind with
    | .keyword .printWord =>
      expect ts "PRINT"
      return .print t.pos (← expr ts clock)
    | .keyword .inputWord =>
      expect ts "INPUT"
      return .input t.pos (← identifier ts)
    | .keyword .letWord =>
      expect ts "LET"
      let x ← identifier ts
      expect ts "="
      return .assign t.pos x (← expr ts clock)
    | .keyword .ifWord =>
      expect ts "IF"
      let cond ← expr ts clock
      expect ts "THEN"
      let body ← stmt clock
      if ← accept ts "ELSE" then
        return .ifElse t.pos cond body (← stmt clock)
      else
        return .ifThen t.pos cond body
    | .keyword .whileWord =>
      expect ts "WHILE"
      let cond ← expr ts clock
      expect ts "THEN"
      return .whileThen t.pos cond (← stmt clock)
    | .keyword .gotoWord =>
      advance ts
      return .goto t.pos (some (← labelRef ts))
    | .keyword .nopWord =>
      advance ts
      return .nop t.pos
    | .keyword .exitWord =>
      advance ts
      return .exit t.pos
    | _ => fail ts .statement

/-- The label at the start of a line, if there is one. -/
def labelDecl : Walk (Option Label) := do
  let t ← current ts
  match t.kind with
  | .int =>
    advance ts
    let _ ← accept ts ":"
    return some (.num (← integer t))
  | .ident =>
    advance ts
    if ← accept ts ":" then
      return some (.name t.text)
    else
      fail ts (.colonAfter t.text)
  | _ => return none

/-- The statements of a line behind its first one. -/
def stmtsFrom : Nat → Walk (List Stmt)
  | 0 => unfinished
  | clock + 1 => do
    if ← accept ts "\\" then
      let s ← stmt ts clock
      return s :: (← stmtsFrom clock)
    else
      return []

/-- The end of a line: a line feed, which is passed, or the end of input, which never is. -/
def endOfLine : Walk Unit := do
  let t ← current ts
  if t.kind = .newline then advance ts
  else if t.kind = .eof then return ()
  else fail ts .endOfLine

/-- One line, at the position of its first token. -/
def line (clock : Nat) : Walk Line := do
  let t ← current ts
  let label ← labelDecl ts
  let s ← stmt ts clock
  let ss ← stmtsFrom ts clock
  endOfLine ts
  return ⟨t.pos, label, s :: ss⟩

/-- Passes the line feeds of empty lines, one round of the loop for each. -/
def skipNewlines : Nat → Walk Unit
  | 0 => unfinished
  | clock + 1 => do
    if (← current ts).kind = .newline then
      advance ts
      skipNewlines clock
    else
      return ()

/-- All lines up to the end of input, one round of the loop for each. -/
def program : Nat → Walk (List Line)
  | 0 => unfinished
  | clock + 1 => do
    skipNewlines ts clock
    if (← current ts).kind = .eof then
      return []
    else
      let l ← line ts clock
      return l :: (← program clock)

end Steps

/-- The walk over a token list from its start on. -/
def parse (ts : List Token) (clock : Nat) : Option (Except Stop (List Line) × Place) :=
  program ts clock ⟨0, 0⟩

/-! ## Equations -/

section Equations

variable {α β : Type} {ts : List Token} {w : Walk α} {f : α → Walk β} {p p' : Place} {t : Token}
  {a : α} {stop : Stop}

/-- A walk that comes to a result goes on from where it has come to. -/
theorem bind_apply_of_ok (ok : w p = some (.ok a, p')) : (w >>= f) p = f a p' := by
  change (w p).bind _ = _
  rw [ok]
  rfl

/-- Whatever would come later, a walk that stops has stopped. -/
theorem bind_apply_of_error (error : w p = some (.error stop, p')) :
    (w >>= f) p = some (.error stop, p') := by
  change (w p).bind _ = _
  rw [error]
  rfl

/-- Looking at a token does not move the walk. -/
theorem current_apply (here : ts[p.index]? = some t) : current ts p = some (.ok t, p) := by
  have step : current ts p = (match ts[p.index]? with
    | some t => pure t
    | none => throw (.noToken p.index) : Walk Token) p := rfl
  rw [step, here]
  rfl

/-- What is done with the token at the index is done where the walk stands. -/
theorem current_bind_apply {f : Token → Walk β} (here : ts[p.index]? = some t) :
    (current ts >>= f) p = f t p := bind_apply_of_ok (current_apply here)

/-- The end of input is never passed, so a walk that only advances stays there for ever. -/
theorem advance_apply_of_eof (here : ts[p.index]? = some t) (eof : t.kind = .eof) :
    advance ts p = some (.ok (), p) := by
  unfold advance
  rw [current_bind_apply here, if_pos eof]
  rfl

/-- Any other token is passed, and the walk may have come farther than before. -/
theorem advance_apply (here : ts[p.index]? = some t) (inside : t.kind ≠ .eof) :
    advance ts p = some (.ok (), ⟨p.index + 1, max p.farthest (p.index + 1)⟩) := by
  unfold advance
  rw [current_bind_apply here, if_neg inside]
  rfl

end Equations

/-! ## The clock -/

section Clock

variable {α β : Type} {ts : List Token} {w w' : Walk α} {f f' : α → Walk β} {clock clock' : Nat}

/-- Every answer of `w` is the answer of `w'`. -/
def Keeps (w w' : Walk α) : Prop := ∀ p o, w p = some o → w' p = some o

theorem Keeps.refl (w : Walk α) : Keeps w w := fun _ _ answer => answer

/-- A walk that its clock has stopped has no answer that could be lost. -/
theorem Keeps.unfinished : Keeps unfinished w := fun _ _ answer => nomatch answer

/-- Answers are kept along a sequence, since the second walk begins where the first one has come to.
-/
theorem Keeps.bind (first : Keeps w w') (next : ∀ a, Keeps (f a) (f' a)) :
    Keeps (w >>= f) (w' >>= f') := by
  intro p o answer
  cases begun : w p with
  | none =>
    change (w p).bind _ = _ at answer
    rw [begun] at answer
    cases answer
  | some reached =>
    obtain ⟨a | a, p'⟩ := reached
    · rw [bind_apply_of_error begun] at answer
      rw [bind_apply_of_error (first p _ begun)]
      exact answer
    · rw [bind_apply_of_ok begun] at answer
      rw [bind_apply_of_ok (first p _ begun)]
      exact next a p' o answer

theorem Keeps.bind_left (first : Keeps w w') : Keeps (w >>= f) (w' >>= f) :=
  first.bind fun a => .refl (f a)

theorem Keeps.bind_right (next : ∀ a, Keeps (f a) (f' a)) : Keeps (w >>= f) (w >>= f') :=
  (Keeps.refl w).bind next

/-- One more tick keeps the answers of all walks over expressions. -/
structure ExprsKeep (ts : List Token) (clock : Nat) : Prop where
  exprFrom : ∀ left, Keeps (exprFrom ts clock left) (exprFrom ts (clock + 1) left)
  expr : Keeps (expr ts clock) (expr ts (clock + 1))
  arithFrom : ∀ left, Keeps (arithFrom ts clock left) (arithFrom ts (clock + 1) left)
  arith : Keeps (arith ts clock) (arith ts (clock + 1))
  unary : Keeps (unary ts clock) (unary ts (clock + 1))
  primary : Keeps (primary ts clock) (primary ts (clock + 1))

/-- By induction on the clock, over all six walks at once, since each of them calls others with one
tick less. -/
theorem exprs_keep (ts : List Token) (clock : Nat) : ExprsKeep ts clock := by
  induction clock with
  | zero =>
    exact ⟨fun _ => .unfinished, .unfinished, fun _ => .unfinished, .unfinished, .unfinished,
      .unfinished⟩
  | succ clock ih =>
    constructor
    case exprFrom =>
      intro left
      rw [exprFrom, exprFrom]
      refine Keeps.bind_right fun t => ?_
      split
      · exact .refl _
      · exact Keeps.bind_right fun _ => ih.arith.bind fun right => ih.exprFrom _
    case expr =>
      rw [expr, expr]
      exact ih.arith.bind ih.exprFrom
    case arithFrom =>
      intro left
      rw [arithFrom, arithFrom]
      refine Keeps.bind_right fun t => ?_
      split
      · exact .refl _
      · exact Keeps.bind_right fun _ => ih.unary.bind fun right => ih.arithFrom _
    case arith =>
      rw [arith, arith]
      exact ih.unary.bind ih.arithFrom
    case unary =>
      rw [unary, unary]
      refine Keeps.bind_right fun t => ?_
      split
      · exact Keeps.bind_right fun _ => ih.unary.bind_left
      · exact ih.primary
    case primary =>
      rw [primary, primary]
      refine Keeps.bind_right fun t => ?_
      split
      case h_6 =>
        split
        · exact Keeps.bind_right fun _ => ih.expr.bind_left
        · exact .refl _
      all_goals exact .refl _

/-- Statements nest, so this is an induction of its own over that of expressions. -/
theorem stmt_keeps : Keeps (stmt ts clock) (stmt ts (clock + 1)) := by
  induction clock with
  | zero => exact .unfinished
  | succ clock ih =>
    have exprs : Keeps (expr ts clock) (expr ts (clock + 1)) := (exprs_keep ts clock).expr
    rw [stmt, stmt]
    refine Keeps.bind_right fun t => ?_
    -- `PRINT`, `LET`, `IF` and `WHILE` are the words with parts that take ticks.
    split
    case h_1 => exact Keeps.bind_right fun _ => exprs.bind_left
    case h_3 =>
      refine Keeps.bind_right fun _ => Keeps.bind_right fun x => ?_
      exact Keeps.bind_right fun _ => exprs.bind_left
    case h_4 =>
      refine Keeps.bind_right fun _ => exprs.bind fun cond => ?_
      refine Keeps.bind_right fun _ => ih.bind fun body => Keeps.bind_right fun found => ?_
      split
      · exact ih.bind_left
      · exact .refl _
    case h_5 =>
      refine Keeps.bind_right fun _ => exprs.bind fun cond => ?_
      exact Keeps.bind_right fun _ => ih.bind_left
    all_goals exact .refl _

/-- The rounds over the statements of a line take ticks of the same clock as its statements do. -/
theorem stmtsFrom_keeps : Keeps (stmtsFrom ts clock) (stmtsFrom ts (clock + 1)) := by
  induction clock with
  | zero => exact .unfinished
  | succ clock ih =>
    rw [stmtsFrom, stmtsFrom]
    refine Keeps.bind_right fun found => ?_
    split
    · exact stmt_keeps.bind fun s => ih.bind_left
    · exact .refl _

/-- A line has no loop of its own: it keeps its answers since its parts do. -/
theorem line_keeps : Keeps (line ts clock) (line ts (clock + 1)) := by
  refine Keeps.bind_right fun t => Keeps.bind_right fun label => ?_
  exact stmt_keeps.bind fun s => stmtsFrom_keeps.bind_left

theorem skipNewlines_keeps : Keeps (skipNewlines ts clock) (skipNewlines ts (clock + 1)) := by
  induction clock with
  | zero => exact .unfinished
  | succ clock ih =>
    rw [skipNewlines, skipNewlines]
    refine Keeps.bind_right fun t => ?_
    split
    · exact Keeps.bind_right fun _ => ih
    · exact .refl _

/-- The loop over the lines keeps its answers. -/
theorem program_keeps : Keeps (program ts clock) (program ts (clock + 1)) := by
  induction clock with
  | zero => exact .unfinished
  | succ clock ih =>
    rw [program, program]
    refine skipNewlines_keeps.bind fun _ => Keeps.bind_right fun t => ?_
    split
    · exact .refl _
    · exact line_keeps.bind fun l => ih.bind_left

/-- A clock has no say in the answer, over any tokens: one that goes on longer gives the same. -/
theorem parse_mono {o : Except Stop (List Line) × Place} (answer : parse ts clock = some o)
    (longer : clock ≤ clock') : parse ts clock' = some o := by
  induction longer with
  | refl => exact answer
  | step _ ih => exact program_keeps _ _ ih

end Clock

end Walk

end GotoBasic
