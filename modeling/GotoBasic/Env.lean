import GotoBasic.Assoc
import GotoBasic.Value

/-!
# Variables

The variables of a run: bindings in which every name stands once.
-/

namespace GotoBasic

/-- Bindings of names to values. -/
abbrev Env := List (String × Value)

namespace Env

/-- The value of a name, if it is bound. -/
def get? (e : Env) (x : String) : Option Value := Assoc.get? e x

/-- Binds a name, in place of its former value if it had one. -/
def set (e : Env) (x : String) (v : Value) : Env := Assoc.insert e x v

theorem get?_set (e : Env) (x : String) (v : Value) (y : String) :
    (e.set x v).get? y = if x = y then some v else e.get? y :=
  Assoc.get?_insert e x v y

/-- The bindings in the order of their names' code points. -/
def sorted (e : Env) : Env := e.mergeSort fun a b => a.1 ≤ b.1

end Env

end GotoBasic
