import GotoBasic.Expr.Parser
import GotoBasic.Stmt

/-!
# Parsing statements

```text
Stmt = "PRINT" Expr | "INPUT" IDENT | "LET" IDENT "=" Expr
     | "IF" Expr "THEN" Stmt ["ELSE" Stmt] | "WHILE" Expr "THEN" Stmt
     | "GOTO" (INT | IDENT) | "NOP" | "EXIT"
```

An `ELSE` belongs to the nearest `IF` before it.
-/

namespace GotoBasic.Parser

/-- The target of a jump. -/
def labelRef : Parser Label := do
  let t ← current
  match t.kind with
  | .int =>
    advance
    return .num (← integer t)
  | .ident =>
    advance
    return .name t.text
  | _ => fail .lineLabel

/-- A statement; the bound limits how deep statements and expressions nest. -/
def stmt : Nat → Parser Stmt
  | 0 => fail .statement
  | n + 1 => do
    let t ← current
    match t.kind with
    | .keyword .printWord =>
      expect "PRINT"
      return .print t.pos (← expr (n + 1))
    | .keyword .inputWord =>
      expect "INPUT"
      return .input t.pos (← identifier)
    | .keyword .letWord =>
      expect "LET"
      let x ← identifier
      expect "="
      return .assign t.pos x (← expr (n + 1))
    | .keyword .ifWord =>
      expect "IF"
      let cond ← expr (n + 1)
      expect "THEN"
      let body ← stmt n
      if ← accept "ELSE" then
        return .ifElse t.pos cond body (← stmt n)
      else
        return .ifThen t.pos cond body
    | .keyword .whileWord =>
      expect "WHILE"
      let cond ← expr (n + 1)
      expect "THEN"
      return .whileThen t.pos cond (← stmt n)
    | .keyword .gotoWord =>
      advance
      return .goto t.pos (some (← labelRef))
    | .keyword .nopWord =>
      advance
      return .nop t.pos
    | .keyword .exitWord =>
      advance
      return .exit t.pos
    | _ => fail .statement

end GotoBasic.Parser
