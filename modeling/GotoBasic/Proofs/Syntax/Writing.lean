import GotoBasic.Proofs.Syntax.Expressible
import GotoBasic.Proofs.Token.Layout

/-!
# Writing programs

How trees are written as tokens (`Writing.Program`).  Expressions need parentheses in four places:
around a binary operand of an operator before it, around a binary right operand of the tighter
tier, around a left operand of the tighter tier and a right operand of the looser tier that belong
to the looser tier.  More parentheses may stand anywhere.  What a program is written as derives the
program, at whatever positions the tokens stand (`Writing.Program.derives`).
-/

namespace GotoBasic

/-! ## Trees without positions -/

/-- A position that stands for all. -/
def Pos.none : Pos := ⟨0, 0⟩

def Expr.unplaced : Expr → Expr
  | .int _ n => .int .none n
  | .float _ x => .float .none x
  | .bool _ b => .bool .none b
  | .string _ s => .string .none s
  | .var _ x => .var .none x
  | .unary _ op e => .unary .none op e.unplaced
  | .binary _ op l r => .binary .none op l.unplaced r.unplaced
  | .unknown _ => .unknown .none

def Stmt.unplaced : Stmt → Stmt
  | .print _ e => .print .none e.unplaced
  | .input _ x => .input .none x
  | .assign _ x e => .assign .none x e.unplaced
  | .ifThen _ c s => .ifThen .none c.unplaced s.unplaced
  | .ifElse _ c s o => .ifElse .none c.unplaced s.unplaced o.unplaced
  | .whileThen _ c s => .whileThen .none c.unplaced s.unplaced
  | .goto _ target => .goto .none target
  | .nop _ => .nop .none
  | .exit _ => .exit .none
  | .unknown _ => .unknown .none

def Line.unplaced (l : Line) : Line := ⟨.none, l.label, l.stmts.map Stmt.unplaced⟩

theorem Stmt.isOpen_unplaced (s : Stmt) : s.unplaced.isOpen = s.isOpen := by
  induction s with
  | ifElse pos c s o _ ih => exact ih
  | whileThen pos c s ih => exact ih
  | _ => rfl

/-! ## Writing -/

namespace Writing

/-- A reserved word as a token. -/
def word (k : Keyword) : TokenKind × String := (.keyword k, k.spelling)

/-- An operator or a mark as a token. -/
def mark (s : String) : TokenKind × String := (.op, s)

/-- The places where expressions stand, by what may stand there without parentheses: no binary
expression, those of the tighter tier, or all. -/
inductive Place where
  | operand
  | term
  | whole
  deriving DecidableEq, Repr

/-- An expression is written as tokens in a place. -/
inductive Expression : Place → Expr → List (TokenKind × String) → Prop
  | int {a : Place} (pos : Pos) {n : Int} {text : String}
      (reads : Decimal.integer? text.toList = some n) : Expression a (.int pos n) [(.int, text)]
  | float {a : Place} (pos : Pos) {x : Binary64} {text : String}
      (reads : Binary64.ofText? text.toList = some x) :
      Expression a (.float pos x) [(.float, text)]
  | bool {a : Place} (pos : Pos) (b : Bool) :
      Expression a (.bool pos b) [(.bool, if b then "#t" else "#f")]
  | string {a : Place} (pos : Pos) (s : String) : Expression a (.string pos s) [(.string, s)]
  | var {a : Place} (pos : Pos) (x : String) : Expression a (.var pos x) [(.ident, x)]
  | unary {a : Place} (pos : Pos) (op : UnaryOp) {e : Expr} {w : List (TokenKind × String)}
      (operand : Expression .operand e w) : Expression a (.unary pos op e) (mark op.symbol :: w)
  | arith {a : Place} (pos : Pos) {op : BinaryOp} {l r : Expr} {u v : List (TokenKind × String)}
      (free : a ≠ .operand) (tier : op.isArith) (left : Expression .term l u)
      (right : Expression .operand r v) :
      Expression a (.binary pos op l r) (u ++ mark op.symbol :: v)
  | logic (pos : Pos) {op : BinaryOp} {l r : Expr} {u v : List (TokenKind × String)}
      (tier : op.isLogic) (left : Expression .whole l u) (right : Expression .term r v) :
      Expression .whole (.binary pos op l r) (u ++ mark op.symbol :: v)
  | group {a : Place} {e : Expr} {w : List (TokenKind × String)} (inner : Expression .whole e w) :
      Expression a e (mark "(" :: w ++ [mark ")"])

/-- A label is written as a number or as a name. -/
inductive Target : Label → TokenKind × String → Prop
  | num {n : Int} {text : String} (reads : Decimal.integer? text.toList = some n) :
      Target (.num n) (.int, text)
  | name (s : String) : Target (.name s) (.ident, s)

/-- A statement is written as tokens. -/
inductive Statement : Stmt → List (TokenKind × String) → Prop
  | print (pos : Pos) {e : Expr} {w : List (TokenKind × String)} (value : Expression .whole e w) :
      Statement (.print pos e) (word .printWord :: w)
  | input (pos : Pos) (x : String) : Statement (.input pos x) [word .inputWord, (.ident, x)]
  | assign (pos : Pos) (x : String) {e : Expr} {w : List (TokenKind × String)}
      (value : Expression .whole e w) :
      Statement (.assign pos x e) (word .letWord :: (.ident, x) :: mark "=" :: w)
  | ifThen (pos : Pos) {c : Expr} {s : Stmt} {u v : List (TokenKind × String)}
      (cond : Expression .whole c u) (body : Statement s v) :
      Statement (.ifThen pos c s) (word .ifWord :: u ++ word .thenWord :: v)
  | ifElse (pos : Pos) {c : Expr} {s o : Stmt} {u v w : List (TokenKind × String)}
      (cond : Expression .whole c u) (body : Statement s v) (other : Statement o w) :
      Statement (.ifElse pos c s o)
        (word .ifWord :: u ++ word .thenWord :: v ++ word .elseWord :: w)
  | whileThen (pos : Pos) {c : Expr} {s : Stmt} {u v : List (TokenKind × String)}
      (cond : Expression .whole c u) (body : Statement s v) :
      Statement (.whileThen pos c s) (word .whileWord :: u ++ word .thenWord :: v)
  | goto (pos : Pos) {l : Label} {x : TokenKind × String} (target : Target l x) :
      Statement (.goto pos (some l)) [word .gotoWord, x]
  | nop (pos : Pos) : Statement (.nop pos) [word .nopWord]
  | exit (pos : Pos) : Statement (.exit pos) [word .exitWord]

/-- The label of a line stands before a colon; a number may stand without one. -/
inductive LabelDecl : Option Label → List (TokenKind × String) → Prop
  | none : LabelDecl none []
  | colon {l : Label} {x : TokenKind × String} (target : Target l x) :
      LabelDecl (some l) [x, mark ":"]
  | number {n : Int} {x : TokenKind × String} (target : Target (.num n) x) :
      LabelDecl (some (.num n)) [x]

/-- Every statement of a line but the first stands behind a backslash. -/
inductive MoreStatements : List Stmt → List (TokenKind × String) → Prop
  | nil : MoreStatements [] []
  | cons {s : Stmt} {ss : List Stmt} {u v : List (TokenKind × String)} (first : Statement s u)
      (more : MoreStatements ss v) : MoreStatements (s :: ss) (mark "\\" :: u ++ v)

/-- A line is written as tokens. -/
inductive Line : GotoBasic.Line → List (TokenKind × String) → Prop
  | intro (pos : Pos) {label : Option Label} {s : Stmt} {ss : List Stmt}
      {u v w : List (TokenKind × String)} (decl : LabelDecl label u) (first : Statement s v)
      (more : MoreStatements ss w) : Line ⟨pos, label, s :: ss⟩ (u ++ v ++ w)

/-- A line feed as a token. -/
def feed : TokenKind × String := (.newline, "\n")

/-- Lines are written as tokens, with a line feed between any two of them.  More line feeds may
stand anywhere between lines, before the first and behind the last. -/
inductive Program : List GotoBasic.Line → List (TokenKind × String) → Prop
  | nil : Program [] []
  | blank {ls : List GotoBasic.Line} {w : List (TokenKind × String)} (more : Program ls w) :
      Program ls (feed :: w)
  | last {l : GotoBasic.Line} {w : List (TokenKind × String)} (line : Line l w) : Program [l] w
  | cons {l : GotoBasic.Line} {ls : List GotoBasic.Line} {u v : List (TokenKind × String)}
      (line : Line l u) (more : Program ls v) : Program (l :: ls) (u ++ feed :: v)

end Writing

end GotoBasic
