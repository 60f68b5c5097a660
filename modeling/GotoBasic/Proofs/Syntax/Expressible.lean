import GotoBasic.Proofs.Parser.Grammatical
import GotoBasic.Proofs.Syntax.Derivation

/-!
# Trees that a text can have

Not every tree comes from a text: texts have no negative numbers, no empty lines and no `ELSE`
behind an open `IF`.  `Line.Expressible` says which lines a text can have, except for the floats in
them, of which it must be able to spell each (`Binary64.Spellable`).  All that the parser returns is
so (`parse_readable`).
-/

namespace GotoBasic

/-! ## Expressible trees -/

/-- A double that digits with a point among or behind them denote. -/
def Binary64.Spellable (x : Binary64) : Prop :=
  ∃ text, TokenKind.float.Spelled text ∧ ofText? text.toList = some x

/-- A number that digits denote that are not too many to be read. -/
def Decimal.Spellable (n : Int) : Prop := 0 ≤ n ∧ isWritable n

/-- The labels of lines and the targets of jumps are such numbers and identifiers. -/
def Label.Expressible : Label → Prop
  | .num n => Decimal.Spellable n
  | .name s => TokenKind.ident.Spelled s

/-- Literals are not negative, variables are identifiers, and operators are those of the
language. -/
def Expr.Expressible : Expr → Prop
  | .int _ n => Decimal.Spellable n
  | .float _ _ => True
  | .bool _ _ => True
  | .string _ _ => True
  | .var _ x => TokenKind.ident.Spelled x
  | .unary _ op e => op.isKnown ∧ e.Expressible
  | .binary _ op l r => (op.isArith ∨ op.isLogic) ∧ l.Expressible ∧ r.Expressible
  | .unknown _ => False

/-- What stands before an `ELSE` does not end in an `IF` without one. -/
def Stmt.Expressible : Stmt → Prop
  | .print _ e => e.Expressible
  | .input _ x => TokenKind.ident.Spelled x
  | .assign _ x e => TokenKind.ident.Spelled x ∧ e.Expressible
  | .ifThen _ c s => c.Expressible ∧ s.Expressible
  | .ifElse _ c s o => c.Expressible ∧ s.Expressible ∧ s.isOpen = false ∧ o.Expressible
  | .whileThen _ c s => c.Expressible ∧ s.Expressible
  | .goto _ target => ∃ l, target = some l ∧ l.Expressible
  | .nop _ => True
  | .exit _ => True
  | .unknown _ => False

/-- A line has at least one statement. -/
structure Line.Expressible (l : Line) : Prop where
  label : ∀ x, l.label = some x → x.Expressible
  nonempty : l.stmts ≠ []
  stmts : ∀ s ∈ l.stmts, s.Expressible

/-! ## The floats in a tree -/

def Expr.floats : Expr → List Binary64
  | .float _ x => [x]
  | .unary _ _ e => e.floats
  | .binary _ _ l r => l.floats ++ r.floats
  | _ => []

def Stmt.floats : Stmt → List Binary64
  | .print _ e => e.floats
  | .assign _ _ e => e.floats
  | .ifThen _ c s => c.floats ++ s.floats
  | .ifElse _ c s o => c.floats ++ (s.floats ++ o.floats)
  | .whileThen _ c s => c.floats ++ s.floats
  | _ => []

def Line.floats (l : Line) : List Binary64 := l.stmts.flatMap Stmt.floats

/-- An expression that can be written. -/
structure Expr.Readable (e : Expr) : Prop where
  expressible : e.Expressible
  floats : ∀ x ∈ e.floats, x.Spellable

/-- A statement that can be written. -/
structure Stmt.Readable (s : Stmt) : Prop where
  expressible : s.Expressible
  floats : ∀ x ∈ s.floats, x.Spellable

/-- A line that can be written. -/
structure Line.Readable (l : Line) : Prop where
  expressible : l.Expressible
  floats : ∀ x ∈ l.floats, x.Spellable

/-! ## Derived expressions -/

namespace Grammar

/-- An integer that was read can be written. -/
theorem Integer.isWritable {t : Token} {n : Int} (literal : Integer t n) (wf : t.WellFormed) :
    Decimal.isWritable n := by
  rw [Token.WellFormed, literal.kind] at wf
  have small : Nat.ofDigitChars 10 t.text.toList 0 < Nat.pow 10 Decimal.digitLimit := by
    have bound := Decimal.ofDigitChars_lt wf.2 0
    rw [Nat.zero_add, Nat.mul_one, String.length_toList, Nat.pow_eq] at bound
    rw [Nat.pow_eq]
    exact Nat.lt_of_lt_of_le bound (Nat.pow_le_pow_right (by decide) literal.short)
  unfold Decimal.isWritable
  rw [literal.value, Int.natAbs_natCast]
  exact decide_eq_true small

theorem Integer.spellable {t : Token} {n : Int} (literal : Integer t n) (wf : t.WellFormed) :
    Decimal.Spellable n := by
  refine ⟨?_, literal.isWritable wf⟩
  rw [literal.value]
  exact Int.natCast_nonneg _

theorem Double.spellable {t : Token} {x : Binary64} (literal : Double t x) (wf : t.WellFormed) :
    x.Spellable := by
  refine ⟨t.text, ?_, (double_iff wf literal.kind).1 literal⟩
  rw [Token.WellFormed, literal.kind] at wf
  exact wf

theorem name_spelled {t : Token} (kind : t.kind = .ident) (wf : t.WellFormed) :
    TokenKind.ident.Spelled t.text := by
  rw [Token.WellFormed, kind] at wf
  exact wf

theorem readableRules :
    ExpressionRules fun u e => (∀ t ∈ u, t.WellFormed) → e.Readable where
  int literal wf := ⟨literal.spellable (wf _ List.mem_cons_self), List.forall_mem_nil _⟩
  float literal wf :=
    ⟨trivial, List.forall_mem_singleton.2 (literal.spellable (wf _ List.mem_cons_self))⟩
  string _ _ := ⟨trivial, List.forall_mem_nil _⟩
  bool _ _ := ⟨trivial, List.forall_mem_nil _⟩
  var kind wf := ⟨name_spelled kind (wf _ List.mem_cons_self), List.forall_mem_nil _⟩
  group _ inner _ wf := inner (List.forall_mem_cons.1 (List.forall_mem_append.1 wf).1).2
  unary known _ operand wf :=
    have inner := operand (List.forall_mem_cons.1 wf).2
    ⟨⟨known, inner.expressible⟩, inner.floats⟩
  binary known _ left right wf :=
    have ⟨front, back⟩ := List.forall_mem_append.1 wf
    have l := left front
    have r := right (List.forall_mem_cons.1 back).2
    ⟨⟨known, l.expressible, r.expressible⟩, List.forall_mem_append.2 ⟨l.floats, r.floats⟩⟩

theorem Expression.readable {u : List Token} {e : Expr} (derives : Expression u e)
    (wf : ∀ t ∈ u, t.WellFormed) : e.Readable :=
  derives.holds readableRules wf

/-! ## Derived statements and lines -/

theorem Target.expressible {t : Token} {l : Label} (target : Target t l) (wf : t.WellFormed) :
    l.Expressible := by
  cases target with
  | number literal => exact literal.spellable wf
  | name kind => exact name_spelled kind wf

/-- What stands before the statement that a condition guards. -/
theorem guarded_readable {t h : Token} {u v : List Token} {c : Expr} (cond : Expression u c)
    (wf : ∀ t' ∈ t :: u ++ h :: v, t'.WellFormed) :
    c.Readable ∧ ∀ t' ∈ v, t'.WellFormed := by
  obtain ⟨front, back⟩ := List.forall_mem_append.1 wf
  exact ⟨cond.readable (List.forall_mem_cons.1 front).2, (List.forall_mem_cons.1 back).2⟩

theorem Statement.readable {u : List Token} {s : Stmt} (derives : Statement u s)
    (wf : ∀ t ∈ u, t.WellFormed) : s.Readable := by
  induction derives with
  | print word value =>
    have inner := value.readable (List.forall_mem_cons.1 wf).2
    exact ⟨inner.expressible, inner.floats⟩
  | input word name =>
    exact ⟨name_spelled name (wf _ (List.mem_cons_of_mem _ List.mem_cons_self)),
      List.forall_mem_nil _⟩
  | assign word name sign value =>
    obtain ⟨-, here, -, rest⟩ := by simpa only [List.forall_mem_cons] using wf
    have inner := value.readable rest
    exact ⟨⟨name_spelled name here, inner.expressible⟩, inner.floats⟩
  | ifThen word cond thenWord body ih =>
    obtain ⟨test, rest⟩ := guarded_readable cond wf
    have inner := ih rest
    exact ⟨⟨test.expressible, inner.expressible⟩,
      List.forall_mem_append.2 ⟨test.floats, inner.floats⟩⟩
  | ifElse word cond thenWord body nearest elseWord other ih ih' =>
    obtain ⟨front, last⟩ := List.forall_mem_append.1 wf
    obtain ⟨test, rest⟩ := guarded_readable cond front
    have inner := ih rest
    have inner' := ih' (List.forall_mem_cons.1 last).2
    have floats := List.forall_mem_append.2 ⟨inner.floats, inner'.floats⟩
    exact ⟨⟨test.expressible, inner.expressible, nearest, inner'.expressible⟩,
      List.forall_mem_append.2 ⟨test.floats, floats⟩⟩
  | whileThen word cond thenWord body ih =>
    obtain ⟨test, rest⟩ := guarded_readable cond wf
    have inner := ih rest
    exact ⟨⟨test.expressible, inner.expressible⟩,
      List.forall_mem_append.2 ⟨test.floats, inner.floats⟩⟩
  | goto word target =>
    exact ⟨⟨_, rfl, target.expressible (wf _ (List.mem_cons_of_mem _ List.mem_cons_self))⟩,
      List.forall_mem_nil _⟩
  | nop word => exact ⟨trivial, List.forall_mem_nil _⟩
  | exit word => exact ⟨trivial, List.forall_mem_nil _⟩

theorem MoreStatements.readable {u : List Token} {ss : List Stmt} (derives : MoreStatements u ss)
    (wf : ∀ t ∈ u, t.WellFormed) : ∀ s ∈ ss, s.Readable := by
  induction derives with
  | nil => exact List.forall_mem_nil _
  | cons mark first more ih =>
    obtain ⟨front, back⟩ := List.forall_mem_append.1 wf
    exact List.forall_mem_cons.2 ⟨first.readable (List.forall_mem_cons.1 front).2, ih back⟩

theorem LabelDecl.expressible {u : List Token} {label : Option Label} (derives : LabelDecl u label)
    (wf : ∀ t ∈ u, t.WellFormed) : ∀ x, label = some x → x.Expressible := by
  rintro x rfl
  cases derives with
  | number literal => exact literal.spellable (wf _ List.mem_cons_self)
  | numberColon literal colon => exact literal.spellable (wf _ List.mem_cons_self)
  | name kind colon => exact name_spelled kind (wf _ List.mem_cons_self)

theorem LineBody.readable {u : List Token} {l : Line} (derives : LineBody u l)
    (wf : ∀ t ∈ u, t.WellFormed) : l.Readable := by
  cases derives with
  | intro start decl first more =>
    obtain ⟨front, back⟩ := List.forall_mem_append.1 wf
    obtain ⟨front, body⟩ := List.forall_mem_append.1 front
    have all := List.forall_mem_cons.2 ⟨first.readable body, more.readable back⟩
    refine
      ⟨⟨decl.expressible front, List.cons_ne_nil _ _, fun s mem => (all s mem).expressible⟩, ?_⟩
    intro x mem
    obtain ⟨s, onLine, inside⟩ := List.mem_flatMap.1 mem
    exact (all s onLine).floats x inside

theorem Lines.readable {u : List Token} {ls : List Line} (derives : Lines u ls)
    (wf : ∀ t ∈ u, t.WellFormed) : ∀ l ∈ ls, l.Readable := by
  induction derives with
  | nil => exact List.forall_mem_nil _
  | blank feed more ih => exact ih (List.forall_mem_cons.1 wf).2
  | last body => exact List.forall_mem_singleton.2 (body.readable wf)
  | cons body feed more ih =>
    obtain ⟨front, back⟩ := List.forall_mem_append.1 wf
    exact List.forall_mem_cons.2 ⟨body.readable front, ih (List.forall_mem_cons.1 back).2⟩

end Grammar

/-- Lines that were read can be written. -/
theorem parse_readable {source : String} {ls : List Line} (parsed : parse source = .ok ls) :
    ∀ l ∈ ls, l.Readable := by
  obtain ⟨ts, tokens, accepted⟩ := parse_eq_ok_iff.1 parsed
  obtain ⟨s, scanned, rfl⟩ := tokenize_scanned tokens
  have derives :=
    (Grammar.program_toTokens_iff scanned).1 ((parseTokens_eq_ok_iff scanned).1 accepted)
  exact derives.readable fun t mem => (scanned.pending t mem).1

end GotoBasic
