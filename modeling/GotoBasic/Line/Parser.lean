import GotoBasic.Line
import GotoBasic.Stmt.Parser

/-!
# Parsing lines

```text
Program = NEWLINE* (Line NEWLINE*)* EOF
Line    = [INT [":"] | IDENT ":"] Stmt ("\" Stmt)* (NEWLINE | before EOF)
```
-/

namespace GotoBasic

namespace Parser

/-- The label at the start of a line, if there is one.  A number may stand without a colon. -/
def labelDecl : Parser (Option Label) := do
  let t ← current
  match t.kind with
  | .int =>
    advance
    let _ ← accept ":"
    return some (.num (← integer t))
  | .ident =>
    advance
    if ← accept ":" then
      return some (.name t.text)
    else
      fail (.colonAfter t.text)
  | _ => return none

/-- The statements of a line behind its first one. -/
def stmtsFrom : Nat → Parser (List Stmt)
  | 0 => return []
  | n + 1 => do
    if ← accept "\\" then
      let s ← stmt (n + 1)
      return s :: (← stmtsFrom n)
    else
      return []

/-- The end of a line: a line feed, which is passed, or the end of input. -/
def endOfLine : Parser Unit := do
  let t ← current
  if t.kind = .newline then advance
  else if t.kind = .eof then return ()
  else fail .endOfLine

/-- One line. -/
def line (n : Nat) : Parser Line := do
  let t ← current
  let label ← labelDecl
  let s ← stmt n
  let ss ← stmtsFrom n
  endOfLine
  return ⟨t.pos, label, s :: ss⟩

/-- Passes the line feeds of empty lines. -/
def skipNewlines : Parser Unit :=
  modify fun s => { s with pending := s.pending.dropWhile fun t => t.kind = .newline }

/-- All lines up to the end of input, at most as many as the bound says. -/
def program : Nat → Parser (List Line)
  | 0 => return []
  | n + 1 => do
    skipNewlines
    if (← current).kind = .eof then
      return []
    else
      let l ← line (n + 1)
      return l :: (← program n)

end Parser

/-- Parses a token list into lines. -/
def parseTokens (ts : List Token) : Except ParseError (List Line) :=
  let s := TokenStream.ofTokens ts
  match Parser.program s.bound s with
  | .ok ls _ => .ok ls
  | .error e _ => .error e

end GotoBasic
