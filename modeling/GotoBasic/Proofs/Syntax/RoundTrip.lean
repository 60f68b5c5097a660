import GotoBasic.Proofs.Syntax.Writing

/-!
# Writing and parsing

Parsing undoes writing.  What lines are written as derives the lines in the grammar, at whatever
positions the tokens stand (`Writing.Program.derives`), and lines that were read can be written
(`Writing.exists_program`).  Both together with layout and scanning give `parse_inverts_writing`.
-/

namespace GotoBasic

namespace Writing

/-! ## Writings derive trees -/

/-- The nonterminal of a place. -/
def Place.Derives : Place → List Token → Expr → Prop
  | .operand => Grammar.Unary
  | .term => Grammar.Arith
  | .whole => Grammar.Expression

/-- What is derived for the tier of arithmetic stands wherever more than an operand may stand. -/
theorem Place.derives_of_arith {a : Place} {u : List Token} {e : Expr} (free : a ≠ .operand)
    (derives : Grammar.Arith u e) : a.Derives u e := by
  cases a with
  | operand => exact absurd rfl free
  | term => exact derives
  | whole => exact .single derives

/-- An operand may stand at every place. -/
theorem Place.derives_of_unary (a : Place) {u : List Token} {e : Expr}
    (derives : Grammar.Unary u e) : a.Derives u e := by
  cases a with
  | operand => exact derives
  | term => exact .single derives
  | whole => exact .single (.single derives)

theorem Place.derives_of_primary (a : Place) {u : List Token} {e : Expr}
    (derives : Grammar.Primary Grammar.Expression u e) : a.Derives u e :=
  a.derives_of_unary (.primary derives)

/-- Tokens that come from a text and are spelled in a given way. -/
structure Spells (ts : List Token) (w : List (TokenKind × String)) : Prop where
  spelling : ts.map Token.spelling = w
  wellFormed : ∀ t ∈ ts, t.WellFormed

namespace Spells

variable {ts : List Token} {x : TokenKind × String} {u v w : List (TokenKind × String)}

theorem nil_iff : Spells ts [] ↔ ts = [] := by
  constructor
  · exact fun spells => List.map_eq_nil_iff.1 spells.spelling
  · rintro rfl
    exact ⟨rfl, List.forall_mem_nil _⟩

/-- Tokens that spell a list begin with a token that spells its first entry. -/
theorem exists_cons (spells : Spells ts (x :: w)) :
    ∃ t ts', ts = t :: ts' ∧ t.WellFormed ∧ t.kind = x.1 ∧ t.text = x.2 ∧ Spells ts' w := by
  obtain ⟨t, ts', rfl, rfl, rest⟩ := List.map_eq_cons_iff.1 spells.spelling
  obtain ⟨here, later⟩ := List.forall_mem_cons.1 spells.wellFormed
  exact ⟨t, ts', rfl, here, rfl, rfl, rest, later⟩

/-- Tokens that spell one list after another are cut into those that spell each. -/
theorem exists_append (spells : Spells ts (u ++ v)) :
    ∃ ts₁ ts₂, ts = ts₁ ++ ts₂ ∧ Spells ts₁ u ∧ Spells ts₂ v := by
  obtain ⟨ts₁, ts₂, rfl, front, back⟩ := List.map_eq_append_iff.1 spells.spelling
  obtain ⟨here, later⟩ := List.forall_mem_append.1 spells.wellFormed
  exact ⟨ts₁, ts₂, rfl, ⟨front, here⟩, back, later⟩

theorem exists_singleton (spells : Spells ts [x]) :
    ∃ t, ts = [t] ∧ t.WellFormed ∧ t.kind = x.1 ∧ t.text = x.2 := by
  obtain ⟨t, ts', rfl, wf, kind, text, rest⟩ := spells.exists_cons
  rw [nil_iff.1 rest]
  exact ⟨t, rfl, wf, kind, text⟩

end Spells

/-- By induction on the writing.  The tree that is derived stands at the positions of the tokens, so
only its shape is that of the tree that was written. -/
theorem Expression.derives {a : Place} {e : Expr} {w : List (TokenKind × String)}
    (writes : Expression a e w) (expressible : e.Expressible) {ts : List Token}
    (spells : Spells ts w) : ∃ e', a.Derives ts e' ∧ e'.unplaced = e.unplaced := by
  induction writes generalizing ts with
  | @int a pos n text reads =>
    obtain ⟨t, rfl, wf, kind, text⟩ := spells.exists_singleton
    have literal := (Grammar.integer_iff wf kind).2 (by rw [text]; exact reads)
    exact ⟨_, a.derives_of_primary (.int literal), rfl⟩
  | @float a pos x text reads =>
    obtain ⟨t, rfl, wf, kind, text⟩ := spells.exists_singleton
    have literal := (Grammar.double_iff wf kind).2 (by rw [text]; exact reads)
    exact ⟨_, a.derives_of_primary (.float literal), rfl⟩
  | @bool a pos b =>
    obtain ⟨t, rfl, wf, kind, text⟩ := spells.exists_singleton
    refine ⟨_, a.derives_of_primary (.bool kind), ?_⟩
    rw [text]
    cases b <;> rfl
  | @string a pos s =>
    obtain ⟨t, rfl, wf, kind, rfl⟩ := spells.exists_singleton
    exact ⟨_, a.derives_of_primary (.string kind), rfl⟩
  | @var a pos x =>
    obtain ⟨t, rfl, wf, kind, rfl⟩ := spells.exists_singleton
    exact ⟨_, a.derives_of_primary (.var kind), rfl⟩
  | @unary a pos op e w operand ih =>
    obtain ⟨t, ts, rfl, -, kind, text, rest⟩ := spells.exists_cons
    obtain ⟨e', derives, same⟩ := ih expressible.2 rest
    refine ⟨_, a.derives_of_unary (.apply expressible.1 ⟨kind, text⟩ derives), ?_⟩
    rw [Expr.unplaced, Expr.unplaced, same]
  | @arith a pos op l r u v free tier left right ih ih' =>
    obtain ⟨ts, ts', rfl, front, back⟩ := spells.exists_append
    obtain ⟨t, ts', rfl, -, kind, text, back⟩ := back.exists_cons
    obtain ⟨l', derives, same⟩ := ih expressible.2.1 front
    obtain ⟨r', derives', same'⟩ := ih' expressible.2.2 back
    refine ⟨_, Place.derives_of_arith free (derives.snoc tier ⟨kind, text⟩ derives'), ?_⟩
    rw [Expr.unplaced, Expr.unplaced, same, same']
  | @logic pos op l r u v tier left right ih ih' =>
    obtain ⟨ts, ts', rfl, front, back⟩ := spells.exists_append
    obtain ⟨t, ts', rfl, -, kind, text, back⟩ := back.exists_cons
    obtain ⟨l', derives, same⟩ := ih expressible.2.1 front
    obtain ⟨r', derives', same'⟩ := ih' expressible.2.2 back
    refine ⟨_, derives.snoc tier ⟨kind, text⟩ derives', ?_⟩
    rw [Expr.unplaced, Expr.unplaced, same, same']
  | @group a e w inner ih =>
    obtain ⟨ts, ts', rfl, front, back⟩ := spells.exists_append
    obtain ⟨t, ts, rfl, -, kind, text, front⟩ := front.exists_cons
    obtain ⟨t', rfl, -, kind', text'⟩ := back.exists_singleton
    obtain ⟨e', derives, same⟩ := ih expressible front
    exact ⟨e', a.derives_of_primary (.group ⟨kind, text⟩ derives ⟨kind', text'⟩), same⟩

theorem Target.derives {l : Label} {x : TokenKind × String} (writes : Target l x) {t : Token}
    (wf : t.WellFormed) (kind : t.kind = x.1) (text : t.text = x.2) : Grammar.Target t l := by
  cases writes with
  | num reads => exact .number ((Grammar.integer_iff wf kind).2 (by rw [text]; exact reads))
  | name s =>
    cases text
    exact .name kind

/-- A condition between two reserved words, before what it guards. -/
theorem Spells.exists_guarded {ts : List Token} {k : Keyword} {c : Expr}
    {u v : List (TokenKind × String)} (cond : Expression .whole c u) (testable : c.Expressible)
    (spells : Spells ts (word k :: u ++ word .thenWord :: v)) :
    ∃ t ts₁ h ts₂ c', ts = t :: ts₁ ++ h :: ts₂ ∧ Grammar.Word k t ∧ Grammar.Expression ts₁ c' ∧
      c'.unplaced = c.unplaced ∧ Grammar.Word .thenWord h ∧ Spells ts₂ v := by
  obtain ⟨ts₁, ts₂, rfl, front, back⟩ := spells.exists_append
  obtain ⟨t, ts₁, rfl, -, kind, -, test⟩ := front.exists_cons
  obtain ⟨h, ts₂, rfl, -, kind', -, body⟩ := back.exists_cons
  obtain ⟨c', derives, same⟩ := cond.derives testable test
  exact ⟨t, ts₁, h, ts₂, c', rfl, kind, derives, same, kind', body⟩

/-- By induction on the writing of the statement. -/
theorem Statement.derives {s : Stmt} {w : List (TokenKind × String)} (writes : Statement s w)
    (expressible : s.Expressible) {ts : List Token} (spells : Spells ts w) :
    ∃ s', Grammar.Statement ts s' ∧ s'.unplaced = s.unplaced := by
  induction writes generalizing ts with
  | print pos value =>
    obtain ⟨t, ts, rfl, -, kind, -, rest⟩ := spells.exists_cons
    obtain ⟨e', derives, same⟩ := value.derives expressible rest
    refine ⟨_, .print kind derives, ?_⟩
    rw [Stmt.unplaced, Stmt.unplaced, same]
  | input pos x =>
    obtain ⟨t, ts, rfl, -, kind, -, rest⟩ := spells.exists_cons
    obtain ⟨t', rfl, -, kind', rfl⟩ := rest.exists_singleton
    exact ⟨_, .input kind kind', rfl⟩
  | assign pos x value =>
    obtain ⟨t, ts, rfl, -, kind, -, rest⟩ := spells.exists_cons
    obtain ⟨t', ts, rfl, -, kind', rfl, rest'⟩ := rest.exists_cons
    obtain ⟨t'', ts, rfl, -, kind'', text'', rest''⟩ := rest'.exists_cons
    obtain ⟨e', derives, same⟩ := value.derives expressible.2 rest''
    refine ⟨_, .assign kind kind' ⟨kind'', text''⟩ derives, ?_⟩
    rw [Stmt.unplaced, Stmt.unplaced, same]
  | ifThen pos cond body ih =>
    obtain ⟨t, ts, h, ts', c', rfl, kind, derives, same, kind', rest⟩ :=
      spells.exists_guarded cond expressible.1
    obtain ⟨s', derives', same'⟩ := ih expressible.2 rest
    refine ⟨_, .ifThen kind derives kind' derives', ?_⟩
    rw [Stmt.unplaced, Stmt.unplaced, same, same']
  | ifElse pos cond body other ih ih' =>
    obtain ⟨testable, inner, nearest, inner'⟩ := expressible
    obtain ⟨ts, ts'', rfl, front, last⟩ := spells.exists_append
    obtain ⟨t, ts, h, ts', c', rfl, kind, derives, same, kind', rest⟩ :=
      front.exists_guarded cond testable
    obtain ⟨l, ts'', rfl, -, kind'', -, alternative⟩ := last.exists_cons
    obtain ⟨s', derives', same'⟩ := ih inner rest
    obtain ⟨o', derives'', same''⟩ := ih' inner' alternative
    have nearest' : s'.isOpen = false := by
      rw [← Stmt.isOpen_unplaced, same', Stmt.isOpen_unplaced, nearest]
    refine ⟨_, .ifElse kind derives kind' derives' nearest' kind'' derives'', ?_⟩
    rw [Stmt.unplaced, Stmt.unplaced, same, same', same'']
  | whileThen pos cond body ih =>
    obtain ⟨t, ts, h, ts', c', rfl, kind, derives, same, kind', rest⟩ :=
      spells.exists_guarded cond expressible.1
    obtain ⟨s', derives', same'⟩ := ih expressible.2 rest
    refine ⟨_, .whileThen kind derives kind' derives', ?_⟩
    rw [Stmt.unplaced, Stmt.unplaced, same, same']
  | goto pos target =>
    obtain ⟨t, ts, rfl, -, kind, -, rest⟩ := spells.exists_cons
    obtain ⟨t', rfl, wf', kind', text'⟩ := rest.exists_singleton
    exact ⟨_, .goto kind (target.derives wf' kind' text'), rfl⟩
  | nop pos =>
    obtain ⟨t, rfl, -, kind, -⟩ := spells.exists_singleton
    exact ⟨_, .nop kind, rfl⟩
  | exit pos =>
    obtain ⟨t, rfl, -, kind, -⟩ := spells.exists_singleton
    exact ⟨_, .exit kind, rfl⟩

theorem LabelDecl.derives {label : Option Label} {w : List (TokenKind × String)}
    (writes : LabelDecl label w) {ts : List Token} (spells : Spells ts w) :
    Grammar.LabelDecl ts label := by
  cases writes with
  | none =>
    rw [Spells.nil_iff.1 spells]
    exact .none
  | colon target =>
    obtain ⟨t, ts, rfl, wf, kind, text, rest⟩ := spells.exists_cons
    obtain ⟨t', rfl, -, kind', text'⟩ := rest.exists_singleton
    cases target.derives wf kind text with
    | number literal => exact .numberColon literal ⟨kind', text'⟩
    | name kind => exact .name kind ⟨kind', text'⟩
  | number target =>
    obtain ⟨t, rfl, wf, kind, text⟩ := spells.exists_singleton
    cases target.derives wf kind text with
    | number literal => exact .number literal

theorem MoreStatements.derives {ss : List Stmt} {w : List (TokenKind × String)}
    (writes : MoreStatements ss w) (expressible : ∀ s ∈ ss, s.Expressible) {ts : List Token}
    (spells : Spells ts w) : ∃ ss', Grammar.MoreStatements ts ss' ∧
      ss'.map Stmt.unplaced = ss.map Stmt.unplaced := by
  induction writes generalizing ts with
  | nil =>
    rw [Spells.nil_iff.1 spells]
    exact ⟨[], .nil, rfl⟩
  | cons first more ih =>
    obtain ⟨here, later⟩ := List.forall_mem_cons.1 expressible
    obtain ⟨ts, ts', rfl, front, back⟩ := spells.exists_append
    obtain ⟨t, ts, rfl, -, kind, text, front⟩ := front.exists_cons
    obtain ⟨s', derives, same⟩ := first.derives here front
    obtain ⟨ss', derives', same'⟩ := ih later back
    refine ⟨_, .cons ⟨kind, text⟩ derives derives', ?_⟩
    rw [List.map_cons, List.map_cons, same, same']

/-- A line is derived part by part, and its position is that of the first token. -/
theorem Line.derives {l : GotoBasic.Line} {w : List (TokenKind × String)} (writes : Line l w)
    (expressible : l.Expressible) {ts : List Token} (spells : Spells ts w) :
    ∃ l', Grammar.LineBody ts l' ∧ l'.unplaced = l.unplaced := by
  cases writes with
  | intro pos decl first more =>
    obtain ⟨here, later⟩ := List.forall_mem_cons.1 expressible.stmts
    obtain ⟨ts, ts'', rfl, front, last⟩ := spells.exists_append
    obtain ⟨ts, ts', rfl, start, back⟩ := front.exists_append
    obtain ⟨s', derives, same⟩ := first.derives here back
    obtain ⟨ss', derives', same'⟩ := more.derives later last
    obtain ⟨pos', body⟩ := Grammar.exists_lineBody (decl.derives start) derives derives'
    refine ⟨_, body, ?_⟩
    rw [GotoBasic.Line.unplaced, GotoBasic.Line.unplaced, List.map_cons, List.map_cons, same, same']

/-- Line feeds stand behind and between lines wherever a writing has them. -/
theorem Program.derives {ls : List GotoBasic.Line} {w : List (TokenKind × String)}
    (writes : Program ls w) (expressible : ∀ l ∈ ls, l.Expressible) {ts : List Token}
    (spells : Spells ts w) : ∃ ls', Grammar.Lines ts ls' ∧
      ls'.map GotoBasic.Line.unplaced = ls.map GotoBasic.Line.unplaced := by
  induction writes generalizing ts with
  | nil =>
    rw [Spells.nil_iff.1 spells]
    exact ⟨[], .nil, rfl⟩
  | blank more ih =>
    obtain ⟨t, ts, rfl, -, kind, -, rest⟩ := spells.exists_cons
    obtain ⟨ls', derives, same⟩ := ih expressible rest
    exact ⟨ls', .blank kind derives, same⟩
  | last line =>
    obtain ⟨l', derives, same⟩ := line.derives (expressible _ List.mem_cons_self) spells
    refine ⟨_, .last derives, ?_⟩
    rw [List.map_singleton, List.map_singleton, same]
  | cons line more ih =>
    obtain ⟨here, later⟩ := List.forall_mem_cons.1 expressible
    obtain ⟨ts, ts', rfl, front, back⟩ := spells.exists_append
    obtain ⟨t, ts', rfl, -, kind, -, back⟩ := back.exists_cons
    obtain ⟨l', derives, same⟩ := line.derives here front
    obtain ⟨ls', derives', same'⟩ := ih later back
    refine ⟨_, .cons derives kind derives', ?_⟩
    rw [List.map_cons, List.map_cons, same, same']

/-! ## Readable trees can be written -/

theorem writable_word (k : Keyword) : Lexer.Writable (word k) := .inl (plain_word k)

theorem writable_name {x : String} (name : TokenKind.ident.Spelled x) :
    Lexer.Writable (.ident, x) := .inl ⟨name, nofun, nofun⟩

theorem writable_mark {s : String} (mem : s ∈ operatorSpellings) : Lexer.Writable (mark s) :=
  .inl (plain_operator mem)

/-- A number is spelled by its digits. -/
theorem exists_integer {n : Int} (spellable : Decimal.Spellable n) :
    ∃ text, Decimal.integer? text.toList = some n ∧ Plain (.int, text) := by
  refine ⟨String.ofList (Decimal.digits n), ?_, ⟨?_, ?_⟩, nofun, nofun⟩
  · rw [String.toList_ofList]
    exact Decimal.integer?_digits spellable.1 spellable.2
  · rw [String.toList_ofList, Decimal.digits_eq_toDigits spellable.1]
    exact Nat.toDigits_ne_nil
  · rw [String.toList_ofList]
    exact Decimal.isDigit_of_mem_digits spellable.1

theorem symbol_mem_of_isKnown {op : UnaryOp} (known : op.isKnown) :
    op.symbol ∈ operatorSpellings := by
  cases op with
  | other s => cases known
  | _ => decide

/-- The symbols of the operators are among those that the lexer knows. -/
theorem symbol_mem_of_tier {op : BinaryOp} (tier : op.isArith ∨ op.isLogic) :
    op.symbol ∈ operatorSpellings := by
  cases op with
  | arith op => cases op <;> decide
  | other s => rcases tier with tier | tier <;> cases tier
  | _ => decide

/-- By induction on the tree, for every place at once.  Where a place is too narrow for an operator,
the expression is put into parentheses. -/
theorem exists_expression {e : Expr} (readable : e.Readable) (a : Place) :
    ∃ w, Expression a e w ∧ ∀ x ∈ w, Lexer.Writable x := by
  induction e generalizing a with
  | int pos n =>
    obtain ⟨text, reads, plain⟩ := exists_integer readable.expressible
    exact ⟨_, .int pos reads, List.forall_mem_singleton.2 (.inl plain)⟩
  | float pos x =>
    obtain ⟨text, spelled, reads⟩ := readable.floats x List.mem_cons_self
    exact ⟨_, .float pos reads, List.forall_mem_singleton.2 (.inl ⟨spelled, nofun, nofun⟩)⟩
  | bool pos b =>
    refine ⟨_, .bool pos b, List.forall_mem_singleton.2 (.inl ⟨?_, nofun, nofun⟩)⟩
    cases b
    · exact .inr rfl
    · exact .inl rfl
  | string pos s => exact ⟨_, .string pos s, List.forall_mem_singleton.2 (.inr rfl)⟩
  | var pos x =>
    exact ⟨_, .var pos x, List.forall_mem_singleton.2 (writable_name readable.expressible)⟩
  | unary pos op e ih =>
    obtain ⟨w, writes, writable⟩ := ih ⟨readable.expressible.2, readable.floats⟩ .operand
    refine ⟨_, .unary pos op writes, List.forall_mem_cons.2 ⟨?_, writable⟩⟩
    exact writable_mark (symbol_mem_of_isKnown readable.expressible.1)
  | binary pos op l r ih ih' =>
    obtain ⟨tier, left, right⟩ := readable.expressible
    obtain ⟨floats, floats'⟩ := List.forall_mem_append.1 readable.floats
    have sign := writable_mark (symbol_mem_of_tier tier)
    -- Parentheses are right everywhere, so they are always written.
    have group {u : List (TokenKind × String)} (whole : Expression .whole (.binary pos op l r) u)
        (writable : ∀ x ∈ u, Lexer.Writable x) :
        ∃ w, Expression a (.binary pos op l r) w ∧ ∀ x ∈ w, Lexer.Writable x := by
      refine ⟨_, .group whole, List.forall_mem_append.2 ⟨?_, ?_⟩⟩
      · exact List.forall_mem_cons.2 ⟨writable_mark (by decide), writable⟩
      · exact List.forall_mem_singleton.2 (writable_mark (by decide))
    rcases tier with tier | tier
    · obtain ⟨u, writes, writable⟩ := ih ⟨left, floats⟩ .term
      obtain ⟨v, writes', writable'⟩ := ih' ⟨right, floats'⟩ .operand
      refine group (.arith pos nofun tier writes writes') ?_
      exact List.forall_mem_append.2 ⟨writable, List.forall_mem_cons.2 ⟨sign, writable'⟩⟩
    · obtain ⟨u, writes, writable⟩ := ih ⟨left, floats⟩ .whole
      obtain ⟨v, writes', writable'⟩ := ih' ⟨right, floats'⟩ .term
      refine group (.logic pos tier writes writes') ?_
      exact List.forall_mem_append.2 ⟨writable, List.forall_mem_cons.2 ⟨sign, writable'⟩⟩
  | unknown pos => exact readable.expressible.elim

theorem exists_target {l : Label} (expressible : l.Expressible) :
    ∃ x, Target l x ∧ Lexer.Writable x := by
  cases l with
  | num n =>
    obtain ⟨text, reads, plain⟩ := exists_integer expressible
    exact ⟨_, .num reads, .inl plain⟩
  | name s => exact ⟨_, .name s, writable_name expressible⟩

/-- A condition between its two words can be written if it is readable. -/
theorem exists_guarded {k : Keyword} {c : Expr} {v : List (TokenKind × String)}
    (readable : c.Readable) (writable : ∀ x ∈ v, Lexer.Writable x) :
    ∃ u, Expression .whole c u ∧ ∀ x ∈ word k :: u ++ word .thenWord :: v, Lexer.Writable x := by
  obtain ⟨u, writes, writable'⟩ := exists_expression readable .whole
  refine ⟨u, writes, List.forall_mem_append.2 ⟨?_, ?_⟩⟩
  · exact List.forall_mem_cons.2 ⟨writable_word k, writable'⟩
  · exact List.forall_mem_cons.2 ⟨writable_word .thenWord, writable⟩

/-- By induction on the tree.  That no conditional takes the `ELSE` of another one is part of being
readable. -/
theorem exists_statement {s : Stmt} (readable : s.Readable) :
    ∃ w, Statement s w ∧ ∀ x ∈ w, Lexer.Writable x := by
  induction s with
  | print pos e =>
    obtain ⟨w, writes, writable⟩ := exists_expression ⟨readable.expressible, readable.floats⟩ .whole
    exact ⟨_, .print pos writes, List.forall_mem_cons.2 ⟨writable_word _, writable⟩⟩
  | input pos x =>
    refine ⟨_, .input pos x, List.forall_mem_cons.2 ⟨writable_word _, ?_⟩⟩
    exact List.forall_mem_singleton.2 (writable_name readable.expressible)
  | assign pos x e =>
    obtain ⟨name, value⟩ := readable.expressible
    obtain ⟨w, writes, writable⟩ := exists_expression ⟨value, readable.floats⟩ .whole
    refine ⟨_, .assign pos x writes, List.forall_mem_cons.2 ⟨writable_word _, ?_⟩⟩
    refine List.forall_mem_cons.2 ⟨writable_name name, List.forall_mem_cons.2 ⟨?_, writable⟩⟩
    exact writable_mark (by decide)
  | ifThen pos c s ih =>
    obtain ⟨test, body⟩ := readable.expressible
    obtain ⟨floats, floats'⟩ := List.forall_mem_append.1 readable.floats
    obtain ⟨v, writes', writable'⟩ := ih ⟨body, floats'⟩
    obtain ⟨u, writes, writable⟩ := exists_guarded ⟨test, floats⟩ writable'
    exact ⟨_, .ifThen pos writes writes', writable⟩
  | ifElse pos c s o ih ih' =>
    obtain ⟨test, body, -, other⟩ := readable.expressible
    obtain ⟨floats, later⟩ := List.forall_mem_append.1 readable.floats
    obtain ⟨floats', floats''⟩ := List.forall_mem_append.1 later
    obtain ⟨v, writes', writable'⟩ := ih ⟨body, floats'⟩
    obtain ⟨w, writes'', writable''⟩ := ih' ⟨other, floats''⟩
    obtain ⟨u, writes, writable⟩ := exists_guarded ⟨test, floats⟩ writable'
    refine ⟨_, .ifElse pos writes writes' writes'', List.forall_mem_append.2 ⟨writable, ?_⟩⟩
    exact List.forall_mem_cons.2 ⟨writable_word _, writable''⟩
  | whileThen pos c s ih =>
    obtain ⟨test, body⟩ := readable.expressible
    obtain ⟨floats, floats'⟩ := List.forall_mem_append.1 readable.floats
    obtain ⟨v, writes', writable'⟩ := ih ⟨body, floats'⟩
    obtain ⟨u, writes, writable⟩ := exists_guarded ⟨test, floats⟩ writable'
    exact ⟨_, .whileThen pos writes writes', writable⟩
  | goto pos target =>
    obtain ⟨l, rfl, named⟩ := readable.expressible
    obtain ⟨x, writes, writable⟩ := exists_target named
    exact ⟨_, .goto pos writes,
      List.forall_mem_cons.2 ⟨writable_word _, List.forall_mem_singleton.2 writable⟩⟩
  | nop pos => exact ⟨_, .nop pos, List.forall_mem_singleton.2 (writable_word _)⟩
  | exit pos => exact ⟨_, .exit pos, List.forall_mem_singleton.2 (writable_word _)⟩
  | unknown pos => exact readable.expressible.elim

theorem exists_labelDecl {label : Option Label}
    (expressible : ∀ l, label = some l → l.Expressible) :
    ∃ w, LabelDecl label w ∧ ∀ x ∈ w, Lexer.Writable x := by
  cases label with
  | none => exact ⟨[], .none, List.forall_mem_nil _⟩
  | some l =>
    obtain ⟨x, writes, writable⟩ := exists_target (expressible l rfl)
    refine ⟨_, .colon writes, List.forall_mem_cons.2 ⟨writable, List.forall_mem_singleton.2 ?_⟩⟩
    exact writable_mark (by decide)

theorem exists_moreStatements {ss : List Stmt} (readable : ∀ s ∈ ss, s.Readable) :
    ∃ w, MoreStatements ss w ∧ ∀ x ∈ w, Lexer.Writable x := by
  induction ss with
  | nil => exact ⟨[], .nil, List.forall_mem_nil _⟩
  | cons s ss ih =>
    obtain ⟨here, later⟩ := List.forall_mem_cons.1 readable
    obtain ⟨u, writes, writable⟩ := exists_statement here
    obtain ⟨v, writes', writable'⟩ := ih later
    refine ⟨_, .cons writes writes', List.forall_mem_append.2 ⟨?_, writable'⟩⟩
    exact List.forall_mem_cons.2 ⟨writable_mark (by decide), writable⟩

/-- A line can be written label first, and then its statements with marks between them. -/
theorem exists_line {l : GotoBasic.Line} (readable : l.Readable) :
    ∃ w, Line l w ∧ ∀ x ∈ w, Lexer.Writable x := by
  obtain ⟨pos, label, stmts⟩ := l
  obtain ⟨⟨named, nonempty, expressible⟩, floats⟩ := readable
  have all : ∀ s ∈ stmts, s.Readable := fun s mem =>
    ⟨expressible s mem, fun x inside => floats x (List.mem_flatMap.2 ⟨s, mem, inside⟩)⟩
  cases stmts with
  | nil => exact absurd rfl nonempty
  | cons s ss =>
    obtain ⟨here, later⟩ := List.forall_mem_cons.1 all
    obtain ⟨u, decl, writable⟩ := exists_labelDecl named
    obtain ⟨v, first, writable'⟩ := exists_statement here
    obtain ⟨w, more, writable''⟩ := exists_moreStatements later
    refine ⟨_, .intro pos decl first more, ?_⟩
    exact List.forall_mem_append.2 ⟨List.forall_mem_append.2 ⟨writable, writable'⟩, writable''⟩

/-- Lines that can be read can be written. -/
theorem exists_program {ls : List GotoBasic.Line} (readable : ∀ l ∈ ls, l.Readable) :
    ∃ w, Program ls w ∧ ∀ x ∈ w, Lexer.Writable x := by
  induction ls with
  | nil => exact ⟨[], .nil, List.forall_mem_nil _⟩
  | cons l ls ih =>
    obtain ⟨here, later⟩ := List.forall_mem_cons.1 readable
    obtain ⟨u, line, writable⟩ := exists_line here
    obtain ⟨v, more, writable'⟩ := ih later
    refine ⟨_, .cons line more, List.forall_mem_append.2 ⟨writable, ?_⟩⟩
    exact List.forall_mem_cons.2 ⟨.inl ⟨rfl, nofun, nofun⟩, writable'⟩

/-- Lines are written in a text. -/
def Text (ls : List GotoBasic.Line) (source : String) : Prop :=
  ∃ w, Program ls w ∧ Lexer.Lays w source.toList

/-- A text in which expressible lines are written is parsed to them, up to positions. -/
theorem Text.parse_eq {ls : List GotoBasic.Line} {source : String} (text : Text ls source)
    (expressible : ∀ l ∈ ls, l.Expressible) : ∃ ls', parse source = .ok ls' ∧
      ls'.map GotoBasic.Line.unplaced = ls.map GotoBasic.Line.unplaced := by
  obtain ⟨w, writes, lays⟩ := text
  obtain ⟨ts, last, tokens, spelling⟩ := Lexer.scan_of_lays lays Pos.start
  obtain ⟨s, scanned, whole⟩ := tokenize_scanned tokens
  have pending : s.pending = ts := List.append_inj_left' whole rfl
  obtain ⟨ls', derives, same⟩ :=
    writes.derives expressible ⟨spelling, fun t mem => (scanned.pending t (by rwa [pending])).1⟩
  refine ⟨ls', parse_eq_ok_iff.2 ⟨_, tokens, ?_⟩, same⟩
  rw [← whole, parseTokens_eq_ok_iff scanned, Grammar.program_toTokens_iff scanned, pending]
  exact derives

end Writing

/-- Writing and parsing are inverse to each other on the lines that a text can have: what is read
can be written, and what is written is read back, up to positions. -/
theorem parse_inverts_writing (ls : List Line) :
    (∀ source, parse source = .ok ls → ∀ l ∈ ls, l.Readable) ∧
      ((∀ l ∈ ls, l.Readable) → ∃ source, Writing.Text ls source) ∧
      ((∀ l ∈ ls, l.Expressible) → ∀ source, Writing.Text ls source →
        ∃ ls', parse source = .ok ls' ∧ ls'.map Line.unplaced = ls.map Line.unplaced) := by
  refine ⟨fun source => parse_readable, fun readable => ?_,
    fun expressible source text => text.parse_eq expressible⟩
  obtain ⟨w, writes, writable⟩ := Writing.exists_program readable
  obtain ⟨cs, lays⟩ := Lexer.exists_lays writable
  exact ⟨String.ofList cs, w, writes, by rwa [String.toList_ofList]⟩

/-- A line with both tiers of operators, parentheses, a float, a protected quote and an `ELSE`. -/
theorem parse_inverts_writing_nested :
    ∃ source ls,
      source = "7 IF ! ( a < 0.50 ) THEN LET b = `q\\`` ELSE PRINT - 1 - ( 2 - 3 ) == a \\ EXIT" ∧
      parse source = .ok ls ∧ (∀ l ∈ ls, l.Readable) ∧ ∃ source', Writing.Text ls source' ∧
        ∃ ls', parse source' = .ok ls' ∧ ls'.map Line.unplaced = ls.map Line.unplaced := by
  have exists_of_isOk (source : String) (accepted : (parse source).isOk) :
      ∃ ls, parse source = .ok ls := by
    cases parsed : parse source with
    | error e =>
      rw [parsed] at accepted
      cases accepted
    | ok ls => exact ⟨ls, rfl⟩
  obtain ⟨ls, parsed⟩ := exists_of_isOk
    "7 IF ! ( a < 0.50 ) THEN LET b = `q\\`` ELSE PRINT - 1 - ( 2 - 3 ) == a \\ EXIT"
    (by decide +kernel)
  obtain ⟨reads, written, readBack⟩ := parse_inverts_writing ls
  have readable := reads _ parsed
  obtain ⟨source', text⟩ := written readable
  exact ⟨_, ls, rfl, parsed, readable, source', text,
    readBack (fun l mem => (readable l mem).expressible) source' text⟩

end GotoBasic
