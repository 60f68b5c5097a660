import GotoBasic.Binary64.Decimal
import GotoBasic.Expr
import GotoBasic.Parser

/-!
# Parsing expressions

```text
Expr    = Arith (LogicOp Arith)*
Arith   = Unary (ArithOp Unary)*
Unary   = ("-" | "!") Unary | Primary
Primary = INT | FLOAT | STRING | BOOL | IDENT | "(" Expr ")"
```

Both tiers of binary operators associate to the left.  A first argument `Nat` bounds how deep
operands nest and how long a chain gets; `TokenStream.bound` is always enough, since every level
and every link takes a token.
-/

namespace GotoBasic

/-- The operator of a tier that a token is. -/
def Token.binaryOp? (t : Token) (tier : BinaryOp → Bool) : Option BinaryOp :=
  let op := BinaryOp.ofSymbol t.text
  if t.kind = .op ∧ tier op then some op else none

/-- The operator before an operand that a token is. -/
def Token.unaryOp? (t : Token) : Option UnaryOp :=
  let op := UnaryOp.ofSymbol t.text
  if t.kind = .op ∧ op.isKnown then some op else none

namespace Parser

/-- The integer that a token of kind `int` denotes. -/
def integer (t : Token) : Parser Int :=
  match Decimal.integer? t.text.toList with
  | some n => return n
  | none => throw (.integerTooLong t)

/-- The double that a token of kind `float` denotes. -/
def double (t : Token) : Parser Binary64 :=
  match Binary64.ofText? t.text.toList with
  | some x => return x
  | none => throw (.malformedFloat t)

/-- More operands of a tier behind `left`, at most as many as the bound says. -/
def chainFrom (tier : BinaryOp → Bool) (operand : Parser Expr) : Nat → Expr → Parser Expr
  | 0, left => return left
  | n + 1, left => do
    match (← current).binaryOp? tier with
    | none => return left
    | some op =>
      advance
      let right ← operand
      chainFrom tier operand n (.binary left.pos op left right)

/-- Operands of a tier with the tier's operators between them, folded to the left. -/
def chain (tier : BinaryOp → Bool) (n : Nat) (operand : Parser Expr) : Parser Expr := do
  let left ← operand
  chainFrom tier operand n left

/-- A literal, a variable, or what `inner` reads between parentheses. -/
def primary (inner : Parser Expr) : Parser Expr := do
  let t ← current
  match t.kind with
  | .int =>
    advance
    return .int t.pos (← integer t)
  | .float =>
    advance
    return .float t.pos (← double t)
  | .string =>
    advance
    return .string t.pos t.text
  | .bool =>
    advance
    return .bool t.pos (t.text == "#t")
  | .ident =>
    advance
    return .var t.pos t.text
  | _ =>
    if t.isSymbol "(" then
      advance
      let e ← inner
      expect ")"
      return e
    else
      fail .expression

/-- The arithmetic tier over given unary operands. -/
def arithOf (n : Nat) (unary : Parser Expr) : Parser Expr := chain BinaryOp.isArith n unary

/-- Both tiers over given unary operands. -/
def exprOf (n : Nat) (unary : Parser Expr) : Parser Expr :=
  chain BinaryOp.isLogic n (arithOf n unary)

/-- An operand with the operators before it. -/
def unary : Nat → Parser Expr
  | 0 => fail .expression
  | n + 1 => do
    let t ← current
    match t.unaryOp? with
    | some op =>
      advance
      return .unary t.pos op (← unary n)
    | none => primary (exprOf n (unary n))

/-- An expression of the arithmetic tier. -/
def arith (n : Nat) : Parser Expr := arithOf n (unary n)

/-- An expression. -/
def expr (n : Nat) : Parser Expr := exprOf n (unary n)

end Parser

end GotoBasic
