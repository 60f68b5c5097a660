/-!
# Operators

The operators of expressions and their spellings.  A tree made by hand may carry a symbol that is
no operator; it is kept as text, and evaluating it is an error.
-/

namespace GotoBasic

/-- The numeric operators; `quot` divides and drops the fraction. -/
inductive ArithOp where
  | add
  | sub
  | mul
  | div
  | quot
  deriving DecidableEq, Repr

/-- The operators before one operand. -/
inductive UnaryOp where
  | neg
  | not
  | other (symbol : String)
  deriving DecidableEq, Repr

/-- The operators between two operands. -/
inductive BinaryOp where
  | arith (op : ArithOp)
  | concat
  | less
  | greater
  | eq
  | ne
  | and
  | or
  | other (symbol : String)
  deriving DecidableEq, Repr

namespace ArithOp

def symbol : ArithOp → String
  | .add => "+"
  | .sub => "-"
  | .mul => "*"
  | .div => "/"
  | .quot => "|"

/-- Whether the second operand must not be zero. -/
def divides : ArithOp → Bool
  | .div => true
  | .quot => true
  | _ => false

end ArithOp

namespace UnaryOp

def ofSymbol : String → UnaryOp
  | "-" => .neg
  | "!" => .not
  | s => .other s

def symbol : UnaryOp → String
  | .neg => "-"
  | .not => "!"
  | .other s => s

/-- Whether the operator is one of the language. -/
def isKnown : UnaryOp → Bool
  | .other _ => false
  | _ => true

theorem ofSymbol_symbol {op : UnaryOp} (known : op.isKnown) : ofSymbol op.symbol = op := by
  cases op with
  | other s => cases known
  | _ => rfl

end UnaryOp

namespace BinaryOp

def ofSymbol : String → BinaryOp
  | "+" => .arith .add
  | "-" => .arith .sub
  | "*" => .arith .mul
  | "/" => .arith .div
  | "|" => .arith .quot
  | "++" => .concat
  | "<" => .less
  | ">" => .greater
  | "==" => .eq
  | "!=" => .ne
  | "&&" => .and
  | "||" => .or
  | s => .other s

def symbol : BinaryOp → String
  | .arith op => op.symbol
  | .concat => "++"
  | .less => "<"
  | .greater => ">"
  | .eq => "=="
  | .ne => "!="
  | .and => "&&"
  | .or => "||"
  | .other s => s

/-- The operators that bind tighter: arithmetic and concatenation. -/
def isArith : BinaryOp → Bool
  | .arith _ => true
  | .concat => true
  | _ => false

/-- The operators that bind looser: comparison and logic. -/
def isLogic : BinaryOp → Bool
  | .less => true
  | .greater => true
  | .eq => true
  | .ne => true
  | .and => true
  | .or => true
  | _ => false

theorem ofSymbol_symbol {op : BinaryOp} (known : op.isArith ∨ op.isLogic) :
    ofSymbol op.symbol = op := by
  cases op with
  | arith a => cases a <;> rfl
  | other s => simp [isArith, isLogic] at known
  | _ => rfl

end BinaryOp

end GotoBasic
