import GotoBasic.Stmt

/-!
# Lines
-/

namespace GotoBasic

/-- A physical line: an optional label and the statements on it. -/
structure Line where
  pos : Pos
  label : Option Label
  stmts : List Stmt
  deriving DecidableEq, Repr, Inhabited

end GotoBasic
