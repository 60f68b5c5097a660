import GotoBasic.Line
import GotoBasic.Proofs.Token.Literal

/-!
# The grammar

The language of programs as relations between token lists and trees, one relation for each
nonterminal:

```text
Program = NEWLINE* (Line NEWLINE*)* EOF
Line    = [INT [":"] | IDENT ":"] Stmt ("\" Stmt)* (NEWLINE | before EOF)
Stmt    = "PRINT" Expr | "INPUT" IDENT | "LET" IDENT "=" Expr
        | "IF" Expr "THEN" Stmt ["ELSE" Stmt] | "WHILE" Expr "THEN" Stmt
        | "GOTO" (INT | IDENT) | "NOP" | "EXIT"
Expr    = Arith (LogicOp Arith)*
Arith   = Unary (ArithOp Unary)*
Unary   = ("-" | "!") Unary | Primary
Primary = INT | FLOAT | STRING | BOOL | IDENT | "(" Expr ")"
```

Nothing here says how a derivation is found: a relation holds of a list and a tree whenever the
productions allow it.  Two things are not in the productions.  An integer must be short enough to
be read (`Integer`), and an `IF` without `ELSE` may not stand right before an `ELSE`
(`Statement.ifElse`).
-/

namespace GotoBasic

/-- A chain of operands with operators between them, folded to the left.  A binary node stands
where its left operand does. -/
def Expr.foldLinks (first : Expr) (links : List (BinaryOp × Expr)) : Expr :=
  links.foldl (fun left link => .binary left.pos link.1 left link.2) first

/-- Whether a statement ends, through its last parts, in an `IF` without `ELSE`. -/
def Stmt.isOpen : Stmt → Bool
  | .ifThen _ _ _ => true
  | .ifElse _ _ _ other => other.isOpen
  | .whileThen _ _ body => body.isOpen
  | _ => false

namespace Grammar

/-! ## Terminals -/

/-- The token is the operator or the mark `s`. -/
def Operator (s : String) (t : Token) : Prop := t.kind = .op ∧ t.text = s

/-- The token is a reserved word. -/
def Word (k : Keyword) (t : Token) : Prop := t.kind = .keyword k

/-- The token is an integer of at most `Decimal.digitLimit` digits, which denote `n`. -/
structure Integer (t : Token) (n : Int) : Prop where
  kind : t.kind = .int
  short : t.text.length ≤ Decimal.digitLimit
  value : n = (Nat.ofDigitChars 10 t.text.toList 0 : Nat)

/-- The token is a float, and `x` is the double nearest to its decimal. -/
structure Double (t : Token) (x : Binary64) : Prop where
  kind : t.kind = .float
  value : ∃ whole fraction : List Char, t.text.toList = whole ++ '.' :: fraction ∧
    (∀ c ∈ whole, Decimal.isDigit c) ∧ x = .ofParts whole fraction

/-! ## Expressions -/

/-- `(Op Operand)*`: operands of a tier, each behind an operator of the tier. -/
inductive Links (tier : BinaryOp → Bool) (Operand : List Token → Expr → Prop) :
    List Token → List (BinaryOp × Expr) → Prop
  | nil : Links tier Operand [] []
  | cons {t : Token} {u v : List Token} {op : BinaryOp} {e : Expr}
      {links : List (BinaryOp × Expr)} (known : tier op) (operator : Operator op.symbol t)
      (operand : Operand u e) (more : Links tier Operand v links) :
      Links tier Operand (t :: u ++ v) ((op, e) :: links)

/-- `Operand (Op Operand)*`, folded to the left. -/
inductive Chain (tier : BinaryOp → Bool) (Operand : List Token → Expr → Prop) :
    List Token → Expr → Prop
  | intro {u v : List Token} {e : Expr} {links : List (BinaryOp × Expr)}
      (first : Operand u e) (more : Links tier Operand v links) :
      Chain tier Operand (u ++ v) (e.foldLinks links)

/-- A literal, a variable, or something from `Inner` between parentheses, which leave no trace in
the tree. -/
inductive Primary (Inner : List Token → Expr → Prop) : List Token → Expr → Prop
  | int {t : Token} {n : Int} (literal : Integer t n) : Primary Inner [t] (.int t.pos n)
  | float {t : Token} {x : Binary64} (literal : Double t x) : Primary Inner [t] (.float t.pos x)
  | string {t : Token} (kind : t.kind = .string) : Primary Inner [t] (.string t.pos t.text)
  | bool {t : Token} (kind : t.kind = .bool) : Primary Inner [t] (.bool t.pos (t.text == "#t"))
  | var {t : Token} (kind : t.kind = .ident) : Primary Inner [t] (.var t.pos t.text)
  | group {l r : Token} {u : List Token} {e : Expr} (left : Operator "(" l) (inner : Inner u e)
      (right : Operator ")" r) : Primary Inner (l :: u ++ [r]) e

/-- An operand with the operators before it. -/
inductive Unary : List Token → Expr → Prop
  | apply {t : Token} {u : List Token} {op : UnaryOp} {e : Expr} (known : op.isKnown)
      (operator : Operator op.symbol t) (operand : Unary u e) :
      Unary (t :: u) (.unary t.pos op e)
  | primary {u : List Token} {e : Expr}
      (operand : Primary (Chain BinaryOp.isLogic (Chain BinaryOp.isArith Unary)) u e) :
      Unary u e

/-- The tighter tier of binary operators. -/
abbrev Arith : List Token → Expr → Prop := Chain BinaryOp.isArith Unary

/-- An expression: the looser tier of binary operators. -/
abbrev Expression : List Token → Expr → Prop := Chain BinaryOp.isLogic Arith

/-! ## Statements -/

/-- The target of a jump. -/
inductive Target : Token → Label → Prop
  | number {t : Token} {n : Int} (literal : Integer t n) : Target t (.num n)
  | name {t : Token} (kind : t.kind = .ident) : Target t (.name t.text)

/-- A statement.  It stands where its first token does. -/
inductive Statement : List Token → Stmt → Prop
  | print {t : Token} {u : List Token} {e : Expr} (word : Word .printWord t)
      (value : Expression u e) : Statement (t :: u) (.print t.pos e)
  | input {t x : Token} (word : Word .inputWord t) (name : x.kind = .ident) :
      Statement [t, x] (.input t.pos x.text)
  | assign {t x q : Token} {u : List Token} {e : Expr} (word : Word .letWord t)
      (name : x.kind = .ident) (sign : Operator "=" q) (value : Expression u e) :
      Statement (t :: x :: q :: u) (.assign t.pos x.text e)
  | ifThen {t h : Token} {u v : List Token} {c : Expr} {s : Stmt} (word : Word .ifWord t)
      (cond : Expression u c) (thenWord : Word .thenWord h) (body : Statement v s) :
      Statement (t :: u ++ h :: v) (.ifThen t.pos c s)
  | ifElse {t h l : Token} {u v w : List Token} {c : Expr} {s o : Stmt} (word : Word .ifWord t)
      (cond : Expression u c) (thenWord : Word .thenWord h) (body : Statement v s)
      (nearest : s.isOpen = false) (elseWord : Word .elseWord l) (other : Statement w o) :
      Statement (t :: u ++ h :: v ++ l :: w) (.ifElse t.pos c s o)
  | whileThen {t h : Token} {u v : List Token} {c : Expr} {s : Stmt} (word : Word .whileWord t)
      (cond : Expression u c) (thenWord : Word .thenWord h) (body : Statement v s) :
      Statement (t :: u ++ h :: v) (.whileThen t.pos c s)
  | goto {t x : Token} {l : Label} (word : Word .gotoWord t) (target : Target x l) :
      Statement [t, x] (.goto t.pos (some l))
  | nop {t : Token} (word : Word .nopWord t) : Statement [t] (.nop t.pos)
  | exit {t : Token} (word : Word .exitWord t) : Statement [t] (.exit t.pos)

/-! ## Lines -/

/-- The label at the start of a line, if there is one. -/
inductive LabelDecl : List Token → Option Label → Prop
  | none : LabelDecl [] none
  | number {t : Token} {n : Int} (literal : Integer t n) : LabelDecl [t] (some (.num n))
  | numberColon {t c : Token} {n : Int} (literal : Integer t n) (colon : Operator ":" c) :
      LabelDecl [t, c] (some (.num n))
  | name {t c : Token} (kind : t.kind = .ident) (colon : Operator ":" c) :
      LabelDecl [t, c] (some (.name t.text))

/-- `("\" Stmt)*`. -/
inductive MoreStatements : List Token → List Stmt → Prop
  | nil : MoreStatements [] []
  | cons {t : Token} {u v : List Token} {s : Stmt} {ss : List Stmt} (mark : Operator "\\" t)
      (first : Statement u s) (more : MoreStatements v ss) :
      MoreStatements (t :: u ++ v) (s :: ss)

/-- A line up to its end.  It stands where its first token does. -/
inductive LineBody : List Token → Line → Prop
  | intro {t : Token} {u v w : List Token} {label : Option Label} {s : Stmt} {ss : List Stmt}
      (start : (u ++ v ++ w).head? = some t) (decl : LabelDecl u label) (first : Statement v s)
      (more : MoreStatements w ss) : LineBody (u ++ v ++ w) ⟨t.pos, label, s :: ss⟩

/-- The lines before the end of input.  Every line but the last ends with a line feed, and empty
lines may stand anywhere. -/
inductive Lines : List Token → List Line → Prop
  | nil : Lines [] []
  | blank {t : Token} {u : List Token} {ls : List Line} (feed : t.kind = .newline)
      (more : Lines u ls) : Lines (t :: u) ls
  | last {u : List Token} {l : Line} (body : LineBody u l) : Lines u [l]
  | cons {t : Token} {u v : List Token} {l : Line} {ls : List Line} (body : LineBody u l)
      (feed : t.kind = .newline) (more : Lines v ls) : Lines (u ++ t :: v) (l :: ls)

/-- A whole program, with the end of input. -/
inductive Program : List Token → List Line → Prop
  | intro {u : List Token} {t : Token} {ls : List Line} (lines : Lines u ls)
      (final : t.kind = .eof) : Program (u ++ [t]) ls

end Grammar

end GotoBasic
