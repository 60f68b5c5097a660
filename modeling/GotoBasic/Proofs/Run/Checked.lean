import GotoBasic.Proofs.Binary64.Integer
import GotoBasic.Proofs.Run.OnLine

/-!
# Checked runs

The operations of a machine always give something: a label without a position counts as the end of
the program, a line that does not exist ends it, a division by zero has a quotient.  In a checked
run these operations are partial.  One that has nothing to give traps, and a trap becomes a fault
only where the language foresees it: an integer that is too long to be shown, and a number that is
out of range in a numeric operator.

Checked runs are runs (`Checked.run_eq`): every partial operation is used within its domain, as
long as the numbers that jumps name are short enough to be written.
-/

namespace GotoBasic

/-- Why a partial operation has nothing to give. -/
inductive Trap where
  /-- No line has the number. -/
  | noLine (index : Nat)
  /-- The program does not have the label. -/
  | noPosition (label : Label)
  /-- A fault that nobody has given a position. -/
  | unplaced (cause : Cause)
  | notANumber (kind : Kind)
  | zeroDivisor
  | overflow
  /-- An integer has no text, or a text or a float no integer. -/
  | unconvertible
  deriving DecidableEq, Repr

/-- What ends a computation early: a fault of the program or a trap. -/
inductive Stop where
  | fault (f : Fault)
  | trap (t : Trap)
  deriving DecidableEq, Repr

namespace Checked

variable {α : Type}

/-- A computation without partial operations. -/
def lift : Except Fault α → Except Stop α
  | .ok a => .ok a
  | .error f => .error (.fault f)

/-- Partial operations whose traps become the fault `f` if they are among `caught`. -/
def guarded (caught : List Trap) (f : Fault) : Except Trap α → Except Stop α
  | .ok a => .ok a
  | .error t => .error (if t ∈ caught then .fault f else .trap t)

/-- Partial operations whose traps nobody catches. -/
def bare : Except Trap α → Except Stop α
  | .ok a => .ok a
  | .error t => .error (.trap t)

/-! ## Values -/

/-- A value that is a number. -/
def number (v : Value) : Except Trap Value :=
  if v.kind.isNumeric then .ok v else .error (.notANumber v.kind)

/-- A number as a float. -/
def toFloat : Value → Except Trap Binary64
  | .float x => .ok x
  | .int n =>
    let x := Binary64.ofInt n
    if x.isFinite then .ok x else .error .overflow
  | v => .error (.notANumber v.kind)

/-- A quotient of floats. -/
def divide (x y : Binary64) : Except Trap Binary64 :=
  if y.isZero then .error .zeroDivisor else .ok (x.div y)

/-- The whole part of a float. -/
def truncate : Binary64 → Except Trap Int
  | .finite s u => .ok (Binary64.signed s (u / Binary64.one))
  | .infinite _ => .error .overflow
  | .nan => .error .unconvertible

def arithInt (op : ArithOp) (a b : Int) : Except Trap Value :=
  match op with
  | .add => .ok (.int (a + b))
  | .sub => .ok (.int (a - b))
  | .mul => .ok (.int (a * b))
  | .quot => if b = 0 then .error .zeroDivisor else .ok (.int (a.tdiv b))
  | .div =>
    let x := Binary64.ofRatio ((a < 0) ^^ (b < 0)) a.natAbs b.natAbs
    if b = 0 then .error .zeroDivisor
    else if x.isFinite then .ok (.float x)
    else .error .overflow

def arithFloat (op : ArithOp) (x y : Binary64) : Except Trap Value :=
  match op with
  | .add => .ok (.float (x.add y))
  | .sub => .ok (.float (x.sub y))
  | .mul => .ok (.float (x.mul y))
  | .div => do return .float (← divide x y)
  | .quot => do
    let n ← truncate (← divide x y)
    return .float (← toFloat (.int n))

/-- The traps that a numeric operator reports as an overflow. -/
def outOfRange : List Trap := [.overflow, .unconvertible]

/-- A numeric operator, whose second operand has been seen not to be zero if it divides. -/
def arith (op : ArithOp) (v w : Value) : Except Trap Value := do
  match ← number v, ← number w with
  | .int a, .int b => arithInt op a b
  | v, w => arithFloat op (← toFloat v) (← toFloat w)

/-- The text of an integer. -/
def integerText (n : Int) : Except Trap String :=
  match Decimal.text? n with
  | some s => .ok s
  | none => .error .unconvertible

def text : Value → Except Trap String
  | .int n => integerText n
  | .float x => .ok x.text
  | .bool b => .ok (if b then "true" else "false")
  | .string s => .ok s

/-- The display text of a value at a position. -/
def display (pos : Pos) (v : Value) : Except Stop String :=
  guarded [.unconvertible] ⟨.tooLargeToDisplay v.kind, pos⟩ (text v)

/-- Equality of values. -/
def equals (v w : Value) : Except Trap Bool :=
  if v.kind.isNumeric && w.kind.isNumeric then do
    return (← number v).numericEq (← number w)
  else .ok (v == w)

/-- Whether `v` comes before `w`, if they have an order. -/
def less? (v w : Value) : Except Trap (Option Bool) :=
  if v.kind.isNumeric && w.kind.isNumeric then do
    return some ((← number v).numericLess (← number w))
  else .ok (Value.less? v w)

/-- An operator on the values of both its operands. -/
def binary (op : BinaryOp) (pos : Pos) (v w : Value) : Except Stop Value :=
  let unsupported : Fault := ⟨.unsupportedOperands op v.kind w.kind, pos⟩
  match op with
  | .eq => do return .bool (← bare (equals v w))
  | .ne => do return .bool !(← bare (equals v w))
  | .concat => do
    let s ← display pos v
    let t ← display pos w
    return .string (s ++ t)
  | .less => do
    match ← bare (less? v w) with
    | some b => return .bool b
    | none => throw (.fault unsupported)
  | .greater => do
    match ← bare (less? w v) with
    | some b => return .bool b
    | none => throw (.fault unsupported)
  | .arith a =>
    if v.kind.isNumeric && w.kind.isNumeric then do
      if a.divides && (← bare (number w)).isZero then throw (.fault ⟨.divisionByZero, pos⟩)
      guarded outOfRange ⟨.numericOverflow a, pos⟩ (arith a v w)
    else throw (.fault unsupported)
  | .and | .or | .other _ =>
    if v.kind.isNumeric && w.kind.isNumeric then throw (.fault ⟨.unknownBinary op, pos⟩)
    else throw (.fault unsupported)

/-! ## Expressions and statements -/

/-- The value of a variable, for a place in the program or for none. -/
def lookup (env : Env) (x : String) (place : Option Pos) : Except Stop Value :=
  match env.get? x, place with
  | some v, _ => .ok v
  | none, some pos => .error (.fault ⟨.undefinedVariable x, pos⟩)
  | none, none => .error (.trap (.unplaced (.undefinedVariable x)))

/-- The value of an expression. -/
def eval (env : Env) : Expr → Except Stop Value
  | .int _ n => .ok (.int n)
  | .float _ x => .ok (.float x)
  | .bool _ b => .ok (.bool b)
  | .string _ s => .ok (.string s)
  | .var pos x => lookup env x (some pos)
  | .unary pos op e => do
    let v ← eval env e
    lift (Cause.locate pos (Value.unary op v))
  | .binary pos op l r => do
    let v ← eval env l
    match op.settledBy? with
    | some settled =>
      let a ← lift (v.logical op pos)
      if a = settled then
        return .bool a
      else
        let w ← eval env r
        return .bool (← lift (w.logical op pos))
    | none =>
      let w ← eval env r
      binary op pos v w
  | .unknown pos => .error (.fault ⟨.unknownExpression, pos⟩)

/-- The truth of the condition of a statement. -/
def test (env : Env) (statement : Conditional) (e : Expr) : Except Stop Bool := do
  match ← eval env e with
  | .bool b => return b
  | v => throw (.fault ⟨.conditionNotBool statement v.kind, e.pos⟩)

/-- A label that may be missing, as a plain text. -/
def labelText : Option Label → Except Trap String
  | some (.num n) => integerText n
  | some (.name s) => .ok s
  | none => .ok Label.missing

/-- The integer that a decimal text denotes. -/
def integerOf (cs : List Char) : Except Trap Int :=
  match Decimal.intOfText? cs with
  | some n => .ok n
  | none => .error .unconvertible

/-- The label that a value names, none if it is decimal text that is too long. -/
def labelOf? : Value → Except Trap (Option Label)
  | .int n => .ok (some (.num n))
  | .string s =>
    let cs := Text.strip s.toList
    if Decimal.isIntegerText cs then
      match integerOf cs with
      | .ok n => .ok (some (.num n))
      | .error .unconvertible => .ok none
      | .error t => .error t
    else .ok (some (.name (String.ofList cs)))
  | _ => .ok none

/-- The label that a jump goes to.  Where the variable is looked up nothing is known about the
place any more, but the variable has been seen to be bound. -/
def resolve (p : Program) (env : Env) (pos : Pos) (target : Option Label) : Except Stop Label :=
  match target.bind p.declared? with
  | some l => .ok l
  | none => do
    let name ← bare (labelText target)
    if (env.get? name).isNone then throw (.fault ⟨.undefinedLabel target, pos⟩)
    let v ← lookup env name none
    match (← bare (labelOf? v)).bind p.declared? with
    | some l => return l
    | none => throw (.fault ⟨.notALabel name, pos⟩)

/-- Runs a statement that the statements `rest` follow. -/
def stepStmt (p : Program) (m : Machine) (rest : List Stmt) : Stmt → Except Stop Flow
  | .print pos e => do
    let v ← eval m.env e
    let s ← display pos v
    return .next rest (m.write s)
  | .input _ x => return .next rest (m.read x)
  | .assign _ x e => do
    let v ← eval m.env e
    return .next rest (m.assign x v)
  | .ifThen _ cond body => do
    if ← test m.env .ifThen cond then
      return .next (body :: rest) m
    else
      return .next rest m
  | .ifElse _ cond body other => do
    if ← test m.env .ifThen cond then
      return .next (body :: rest) m
    else
      return .next (other :: rest) m
  | .whileThen pos cond body => do
    if ← test m.env .whileThen cond then
      return .next (body :: .whileThen pos cond body :: rest) m
    else
      return .next rest m
  | .goto pos target => do
    let l ← resolve p m.env pos target
    return Flow.leave l m
  | .exit _ => return Flow.leave Label.exit m
  | .nop _ => return .next rest m
  | .unknown pos => throw (.fault ⟨.unknownStatement, pos⟩)

/-! ## Programs -/

/-- The line with a given number. -/
def lineAt (p : Program) (i : Nat) : Except Trap Line :=
  match p.line? i with
  | some l => .ok l
  | none => .error (.noLine i)

/-- The number that a label stands for. -/
def positionOf (p : Program) (l : Label) : Except Trap Nat :=
  match p.position? l with
  | some i => .ok i
  | none => .error (.noPosition l)

/-- Starts the line with number `i`, or ends the program if `i` is beyond its lines. -/
def enter (p : Program) (i : Nat) (m : Machine) : Except Trap Step :=
  if i < p.exitIndex then do
    let l ← lineAt p i
    return .next ⟨i, l.stmts, { m with ip := none }.record (.lineStarted i l.label)⟩
  else return .done m

/-- Goes on behind line `i`: with the next line, or where the instruction pointer says. -/
def leave (p : Program) (i : Nat) (m : Machine) : Except Trap Step :=
  match m.ip with
  | none => enter p (i + 1) m
  | some l => do
    let j ← positionOf p l
    enter p j (m.record (.jumped l j))

/-- One step of a program. -/
def step (p : Program) (c : Config) : Except Trap Step :=
  match c.rest with
  | [] => leave p c.index c.machine
  | s :: rest =>
    match stepStmt p c.machine rest s with
    | .ok (.next rest' m) => return .next ⟨c.index, rest', m⟩
    | .ok (.jump _ m) => leave p c.index m
    | .error (.fault f) => return .failed f c.machine
    | .error (.trap t) => throw t

/-- Goes on from the result of a step with at most `n` more steps. -/
def runFrom (p : Program) : Nat → Step → Except Trap Outcome
  | _, .done m => .ok (.done m)
  | _, .failed f m => .ok (.failed f m)
  | 0, .next c => .ok (.running c)
  | n + 1, .next c => do runFrom p n (← step p c)

/-- The number of the line where a run starts. -/
def entryIndex (p : Program) : Except Trap Nat :=
  match p.entry with
  | some l => positionOf p l
  | none => .ok 1

/-- Runs a program from its entry with at most `n` steps. -/
def run (p : Program) (n : Nat) (m : Machine) : Except Trap Outcome := do
  runFrom p n (← enter p (← entryIndex p) m)

end Checked

end GotoBasic
