import GotoBasic.Expr
import GotoBasic.Label

/-!
# Statements
-/

namespace GotoBasic

/-- A statement; every node has a position. -/
inductive Stmt where
  | print (pos : Pos) (e : Expr)
  | input (pos : Pos) (name : String)
  | assign (pos : Pos) (name : String) (e : Expr)
  | ifThen (pos : Pos) (cond : Expr) (body : Stmt)
  | ifElse (pos : Pos) (cond : Expr) (body other : Stmt)
  | whileThen (pos : Pos) (cond : Expr) (body : Stmt)
  /-- A jump; only in trees made by hand can the target be missing. -/
  | goto (pos : Pos) (target : Option Label)
  | nop (pos : Pos)
  | exit (pos : Pos)
  /-- A node without a form; only trees made by hand have it, and running it is an error. -/
  | unknown (pos : Pos)
  deriving DecidableEq, Repr, Inhabited

end GotoBasic
