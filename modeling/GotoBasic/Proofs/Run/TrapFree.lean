import GotoBasic.Proofs.Run.Checked

/-!
# Checked runs do not trap

Every partial operation of a checked run is used within its domain, so that checked runs are runs
(`Checked.run_eq`).  Operators look at the kinds of their operands first, and a divisor is seen not
to be zero before it is used; rounding does not make it zero later.  Numbers out of range do trap,
and become the faults that unchecked operators report (`Checked.arith_agrees`).  A run is always on
a line and jumps only to labels that the program has.  What remains is the text of a jump's target,
which has to be short enough (`Stmt.Writable`).
-/

namespace GotoBasic

/-- If a statement is a jump to a number, the number can be written. -/
def Stmt.Writable : Stmt → Prop
  | .goto _ (some (.num n)) => Decimal.isWritable n
  | _ => True

/-- All jumps of a program to numbers are to numbers that can be written. -/
def Program.Writable (p : Program) : Prop := ∀ l ∈ p.lines, ∀ s ∈ l.parts, s.Writable

namespace Checked

variable {α β : Type}

theorem ok_bind {ε : Type} (a : α) (next : α → Except ε β) : (.ok a >>= next) = next a := rfl

theorem bare_ok (a : α) : bare (.ok a) = .ok a := rfl

/-- Computations without traps may be put together step by step. -/
theorem bind_eq_lift {x : Except Stop α} {y : Except Fault α} {next : α → Except Stop β}
    {next' : α → Except Fault β} (same : x = lift y) (more : ∀ a, next a = lift (next' a)) :
    (x >>= next) = lift (y >>= next') := by
  rw [same]
  cases y with
  | error f => rfl
  | ok a => exact more a

/-! ## Operators -/

/-- A partial operation that gives what an unchecked operator gives, or traps in a way that is
caught where the unchecked operator is out of range. -/
inductive Agrees (op : ArithOp) : Except Trap α → Except Cause α → Prop
  | ok (a : α) : Agrees op (.ok a) (.ok a)
  | trap {t : Trap} (caught : t ∈ outOfRange) :
      Agrees op (.error t) (.error (.numericOverflow op))

/-- Partial operations are put together: what traps first is what is out of range first. -/
theorem Agrees.bind {op : ArithOp} {x : Except Trap α} {y : Except Cause α}
    {next : α → Except Trap β} {next' : α → Except Cause β} (agrees : Agrees op x y)
    (more : ∀ a, y = .ok a → Agrees op (next a) (next' a)) :
    Agrees op (x >>= next) (y >>= next') := by
  cases agrees with
  | ok a => exact more a rfl
  | trap caught => exact .trap caught

/-- Where the traps are caught, they are the fault that the unchecked operator reports. -/
theorem Agrees.guarded_eq {op : ArithOp} {x : Except Trap α} {y : Except Cause α}
    (agrees : Agrees op x y) (pos : Pos) :
    guarded outOfRange ⟨.numericOverflow op, pos⟩ x = lift (Cause.locate pos y) := by
  cases agrees with
  | ok a => rfl
  | trap caught =>
    unfold guarded
    dsimp only
    rw [if_pos caught]
    rfl

/-- The kinds of the operands have been looked at, so this never traps. -/
theorem number_eq {v : Value} (numeric : v.kind.isNumeric) : number v = .ok v := by
  unfold number
  rw [if_pos numeric]

/-- An integer that no double can hold traps where the unchecked operator is out of range. -/
theorem toFloat_agrees (op : ArithOp) {v : Value} (numeric : v.kind.isNumeric) :
    Agrees op (toFloat v) (v.toFloat op) := by
  cases v with
  | float x => exact .ok x
  | int n =>
    unfold toFloat Value.toFloat
    dsimp only
    split
    · exact .ok _
    · exact .trap (by decide)
  | bool b => cases numeric
  | string s => cases numeric

/-- A divisor has been seen not to be zero before it is made a double, and rounding does not make it
zero. -/
theorem isZero_of_toFloat {op : ArithOp} {v : Value} {x : Binary64} (nonzero : v.isZero = false)
    (value : v.toFloat op = .ok x) : x.isZero = false := by
  cases v with
  | float y =>
    cases value
    exact nonzero
  | int n =>
    unfold Value.toFloat at value
    dsimp only at value
    split at value
    · rw [← Except.ok.inj value]
      exact Binary64.isZero_ofInt (by simpa [Value.isZero] using nonzero)
    · cases value
  | bool b => cases value
  | string s => cases value

/-- On integers only division is partial, and its divisor is not zero.  A quotient out of range
traps where the unchecked one is. -/
theorem arithInt_agrees {op : ArithOp} {a b : Int} (nonzero : op.divides → b ≠ 0) :
    Agrees op (arithInt op a b) (Value.arithInt op a b) := by
  cases op with
  | quot =>
    unfold arithInt
    dsimp only
    rw [if_neg (nonzero rfl)]
    exact .ok _
  | div =>
    unfold arithInt Value.arithInt
    dsimp only
    rw [if_neg (nonzero rfl)]
    split
    · exact .ok _
    · exact .trap (by decide)
  | _ => exact .ok _

theorem divide_eq {x y : Binary64} (nonzero : y.isZero = false) : divide x y = .ok (x.div y) := by
  unfold divide
  rw [nonzero]
  rfl

theorem truncate_eq_of_some {x : Binary64} {n : Int} (whole : x.truncate? = some n) :
    truncate x = .ok n := by
  cases x with
  | finite s u => rw [← Option.some.inj whole, truncate]
  | infinite s => cases whole
  | nan => cases whole

/-- Infinities and the value that is no number trap in different ways, and both are caught. -/
theorem truncate_eq_of_none {x : Binary64} (none : x.truncate? = none) :
    ∃ t ∈ outOfRange, truncate x = .error t := by
  cases x with
  | finite s u => cases none
  | infinite s => exact ⟨.overflow, by decide, rfl⟩
  | nan => exact ⟨.unconvertible, by decide, rfl⟩

/-- The whole part of a quotient is within the range of floats. -/
theorem toFloat_of_truncate? {x y : Binary64} {n : Int} (whole : (x.div y).truncate? = some n) :
    toFloat (.int n) = .ok (Binary64.ofInt n) := by
  unfold toFloat
  dsimp only
  rw [if_pos (Binary64.isFinite_ofInt_of_truncate? whole)]

/-- On doubles only division is partial, and its divisor is not zero. -/
theorem arithFloat_agrees {op : ArithOp} {x y : Binary64}
    (nonzero : op.divides → y.isZero = false) :
    Agrees op (arithFloat op x y) (Value.arithFloat op x y) := by
  cases op with
  | div =>
    change Agrees _ (divide x y >>= _) _
    rw [divide_eq (nonzero rfl)]
    exact .ok _
  | quot =>
    unfold arithFloat Value.arithFloat
    dsimp only
    rw [divide_eq (nonzero rfl), ok_bind]
    cases whole : (x.div y).truncate? with
    | some n =>
      rw [truncate_eq_of_some whole, ok_bind, toFloat_of_truncate? whole, ok_bind]
      exact .ok _
    | none =>
      obtain ⟨t, caught, traps⟩ := truncate_eq_of_none whole
      rw [traps]
      exact .trap caught
  | _ => exact .ok _

/-- A numeric operator on numbers traps only where the unchecked operator is out of range. -/
theorem arith_agrees {op : ArithOp} {v w : Value} (left : v.kind.isNumeric)
    (right : w.kind.isNumeric) (nonzero : (op.divides && w.isZero) = false) :
    Agrees op (arith op v w) (Value.arith op v w) := by
  have apart (divides : op.divides) : w.isZero = false := by
    rw [divides, Bool.true_and] at nonzero
    exact nonzero
  have floats : Agrees op (toFloat v >>= fun x => toFloat w >>= fun y => arithFloat op x y)
      (v.toFloat op >>= fun x => w.toFloat op >>= fun y => Value.arithFloat op x y) := by
    refine (toFloat_agrees op left).bind fun x _ => ?_
    refine (toFloat_agrees op right).bind fun y value => ?_
    exact arithFloat_agrees fun divides => isZero_of_toFloat (apart divides) value
  unfold arith Value.arith
  rw [number_eq left, number_eq right, ok_bind, ok_bind, if_neg (by simp [nonzero])]
  cases v with
  | int a =>
    cases w with
    | int b =>
      refine arithInt_agrees fun divides => ?_
      simpa [Value.isZero] using apart divides
    | _ => exact floats
  | _ => exact floats

/-! ## Values -/

/-- An integer that is short enough has a text. -/
theorem integerText_eq {n : Int} (writable : Decimal.isWritable n) :
    integerText n = .ok (String.ofList (Decimal.digits n)) := by
  unfold integerText Decimal.text?
  rw [if_pos writable]

/-- Whether an integer is short enough is asked before its text is made. -/
theorem display_eq (pos : Pos) (v : Value) :
    display pos v = lift (Cause.locate pos v.display) := by
  cases v with
  | int n =>
    change guarded _ _ (integerText n) = lift (Cause.locate pos (Value.int n).display)
    unfold Value.display Value.display? integerText
    dsimp only
    cases Decimal.text? n with
    | some s => rfl
    | none => rfl
  | _ => rfl

theorem equals_eq (v w : Value) : equals v w = .ok (v.equals w) := by
  unfold equals Value.equals
  split
  next numeric =>
    rw [Bool.and_eq_true] at numeric
    rw [number_eq numeric.1, number_eq numeric.2]
    rfl
  · rfl

theorem less?_eq (v w : Value) : less? v w = .ok (Value.less? v w) := by
  unfold less?
  by_cases numeric : (v.kind.isNumeric && w.kind.isNumeric) = true
  · have both := Bool.and_eq_true_iff.1 numeric
    rw [if_pos numeric, number_eq both.1, number_eq both.2]
    unfold Value.less?
    split
    · cases both.1
    · rw [if_pos numeric]
      rfl
  · rw [if_neg numeric]

theorem locate_bind (pos : Pos) (x : Except Cause α) (next : α → Except Cause β) :
    Cause.locate pos (x >>= next) = Cause.locate pos x >>= fun a => Cause.locate pos (next a) := by
  cases x <;> rfl

/-- A numeric operator looks at the kinds of its operands, then whether it divides by zero, and
only then at the numbers. -/
theorem binary_arith_eq (a : ArithOp) (pos : Pos) (v w : Value) :
    binary (.arith a) pos v w = lift (Cause.locate pos (Value.binary (.arith a) v w)) := by
  unfold binary Value.binary
  dsimp only
  by_cases numeric : (v.kind.isNumeric && w.kind.isNumeric) = true
  · have both := Bool.and_eq_true_iff.1 numeric
    rw [if_pos numeric, if_pos numeric, number_eq both.2]
    cases zero : a.divides && w.isZero with
    | true =>
      unfold Value.arith
      rw [if_pos zero]
      change (if (a.divides && w.isZero) = true then _ else _) = _
      rw [if_pos zero]
      rfl
    | false =>
      rw [← (arith_agrees both.1 both.2 zero).guarded_eq pos]
      change (if (a.divides && w.isZero) = true then _ else _) = _
      rw [zero]
      rfl
  · rw [if_neg numeric, if_neg numeric]
    rfl

/-- An operator looks at its operands before it is used on them, so it does not trap. -/
theorem binary_eq (op : BinaryOp) (pos : Pos) (v w : Value) :
    binary op pos v w = lift (Cause.locate pos (Value.binary op v w)) := by
  cases op with
  | eq =>
    change (bare (equals v w) >>= _) = _
    rw [equals_eq]
    rfl
  | ne =>
    change (bare (equals v w) >>= _) = _
    rw [equals_eq]
    rfl
  | concat =>
    unfold binary Value.binary
    rw [locate_bind]
    refine bind_eq_lift (display_eq pos v) fun s => ?_
    rw [locate_bind]
    exact bind_eq_lift (display_eq pos w) fun _ => rfl
  | less =>
    change (bare (less? v w) >>= _) = _
    rw [less?_eq]
    unfold Value.binary
    dsimp only
    cases Value.less? v w with
    | some b => rfl
    | none => rfl
  | greater =>
    change (bare (less? w v) >>= _) = _
    rw [less?_eq]
    unfold Value.binary
    dsimp only
    cases Value.less? w v with
    | some b => rfl
    | none => rfl
  | arith a => exact binary_arith_eq a pos v w
  | _ =>
    unfold binary Value.binary
    dsimp only
    by_cases numeric : (v.kind.isNumeric && w.kind.isNumeric) = true
    · rw [if_pos numeric, if_pos numeric]
      rfl
    · rw [if_neg numeric, if_neg numeric]
      rfl

/-! ## Expressions and statements -/

/-- A variable is looked up only after it has been found to be bound. -/
theorem lookup_eq (env : Env) (x : String) (pos : Pos) :
    lookup env x (some pos) = lift ((Expr.var pos x).eval env) := by
  unfold lookup Expr.eval
  cases env.get? x with
  | some v => rfl
  | none => rfl

/-- By induction on the expression, of which every operator is used within its domain. -/
theorem eval_eq (env : Env) (e : Expr) : eval env e = lift (e.eval env) := by
  induction e with
  | var pos x => exact lookup_eq env x pos
  | unary pos op e ih => exact bind_eq_lift ih fun _ => rfl
  | binary pos op l r ihl ihr =>
    refine bind_eq_lift ihl fun v => ?_
    cases op.settledBy? with
    | some settled =>
      refine bind_eq_lift rfl fun a => ?_
      split
      · rfl
      · exact bind_eq_lift ihr fun w => bind_eq_lift rfl fun _ => rfl
    | none => exact bind_eq_lift ihr fun w => binary_eq op pos v w
  | _ => rfl

theorem test_eq (env : Env) (statement : Conditional) (e : Expr) :
    test env statement e = lift (e.test statement env) := by
  refine bind_eq_lift (eval_eq env e) fun v => ?_
  cases v <;> rfl

/-- A text is taken for a number only if it is one that is short enough. -/
theorem labelOf?_eq (v : Value) : labelOf? v = .ok (Label.ofValue? v) := by
  cases v with
  | string s =>
    unfold labelOf? Label.ofValue? integerOf
    dsimp only
    split
    · cases Decimal.intOfText? (Text.strip s.toList) with
      | some n => rfl
      | none => rfl
    · rfl
  | _ => rfl

/-- The text of a jump's target exists, and its variable is bound where it is looked up. -/
theorem resolve_eq {p : Program} {env : Env} {pos : Pos} {target : Option Label}
    (writable : (Stmt.goto pos target).Writable) :
    resolve p env pos target = lift (Cause.locate pos (p.resolve env target)) := by
  have name : labelText target = .ok (Label.textOf target) := by
    cases target with
    | none => rfl
    | some l =>
      cases l with
      | num n =>
        rw [Stmt.Writable] at writable
        rw [labelText, integerText_eq writable]
        rfl
      | name s => rfl
  unfold resolve Program.resolve
  cases target.bind p.declared? with
  | some l => rfl
  | none =>
    dsimp only
    rw [name]
    generalize Label.textOf target = x
    change (if (env.get? x).isNone = true then _ else _) = _
    unfold lookup
    cases env.get? x with
    | none => rfl
    | some v =>
      change (bare (labelOf? v) >>= _) = _
      rw [labelOf?_eq, bare_ok, ok_bind]
      dsimp only
      cases (Label.ofValue? v).bind p.declared? with
      | some l => rfl
      | none => rfl

/-- A statement does not trap, provided that the target of a jump can be written, which the search
for a variable of this name needs. -/
theorem stepStmt_eq {p : Program} {s : Stmt} (writable : s.Writable) (m : Machine)
    (rest : List Stmt) : stepStmt p m rest s = lift (s.step p m rest) := by
  cases s with
  | print pos e =>
    refine bind_eq_lift (eval_eq m.env e) fun v => ?_
    exact bind_eq_lift (display_eq pos v) fun _ => rfl
  | assign pos x e => exact bind_eq_lift (eval_eq m.env e) fun _ => rfl
  | ifThen pos cond body =>
    refine bind_eq_lift (test_eq m.env .ifThen cond) fun b => ?_
    cases b <;> rfl
  | ifElse pos cond body other =>
    refine bind_eq_lift (test_eq m.env .ifThen cond) fun b => ?_
    cases b <;> rfl
  | whileThen pos cond body =>
    refine bind_eq_lift (test_eq m.env .whileThen cond) fun b => ?_
    cases b <;> rfl
  | goto pos target => exact bind_eq_lift (resolve_eq writable) fun _ => rfl
  | _ => rfl

/-! ## Runs -/

variable {p : Program} {i : Nat}

/-- A label that has been found in the program has a position. -/
theorem positionOf_eq {l : Label} (found : p.position? l = some i) : positionOf p l = .ok i := by
  unfold positionOf
  rw [found]

/-- Entering at a number from one on is within the lines or ends the program. -/
theorem enter_eq (positive : 1 ≤ i) (m : Machine) : enter p i m = .ok (p.enter i m) := by
  unfold enter lineAt Program.enter
  split
  next below =>
    have inside : i - 1 < p.lines.length := by
      unfold Program.exitIndex at below
      omega
    have found : p.line? i = some (p.lines.get ⟨i - 1, inside⟩) :=
      Program.line?_eq_some_iff.2 ⟨positive, List.getElem?_eq_getElem inside⟩
    rw [found]
    rfl
  next beyond =>
    cases found : p.line? i with
    | none => rfl
    | some l =>
      have bounds := Program.le_length_of_line? found
      unfold Program.exitIndex at beyond
      omega

/-- After a jump the instruction pointer is a label of the program, and there the run goes on. -/
theorem leave_eq_of_jump {l : Label} {j : Nat} {m : Machine} (found : p.position? l = some j)
    (set : m.ip = some l) : leave p i m = .ok (p.follow l m) := by
  unfold leave Program.follow
  rw [set]
  dsimp only
  rw [positionOf_eq found, found, ok_bind]
  exact enter_eq (Program.position?_le found).1 _

/-- A step is on a line, whose statements are those of the program, and it leaves the line for a
label that the program has. -/
theorem step_eq {c : Config} (writable : p.Writable) (onLine : p.OnLine c) :
    step p c = .ok (p.step c) := by
  obtain ⟨j, rest, m⟩ := c
  cases rest with
  | nil =>
    change leave p j m = .ok (p.enter (j + 1) m)
    have unset : m.ip = none := onLine.ip
    unfold leave
    rw [unset]
    exact enter_eq (Nat.le_add_left 1 j) m
  | cons s rest =>
    obtain ⟨l, mem, part⟩ := onLine.exists_mem_parts rfl
    have short : s.Writable := writable l mem s part
    have fits := s.action_meets p m.env
    unfold step
    dsimp only
    rw [stepStmt_eq short, Stmt.step_eq]
    cases decides : s.action p m.env with
    | error f =>
      rw [Program.step_of_fault decides]
      rfl
    | ok a =>
      rw [decides] at fits
      rw [Program.step_of_action decides]
      cases a with
      | leave l =>
        obtain ⟨k, found⟩ := fits
        exact leave_eq_of_jump found rfl
      | _ => rfl

/-- By the step, since a run is always on a line. -/
theorem runFrom_eq (writable : p.Writable) (n : Nat) {s : Step} (start : Step.All p.OnLine s) :
    runFrom p n s = .ok (p.runFrom n s) := by
  induction n generalizing s with
  | zero => cases s <;> rfl
  | succ n ih =>
    cases s with
    | next c =>
      have onLine := start c rfl
      change (step p c >>= _) = .ok (p.runFrom n (p.step c))
      rw [step_eq writable onLine, ok_bind]
      exact ih (Program.step_onLine onLine)
    | done m => rfl
    | failed f m => rfl

theorem entryIndex_eq (p : Program) : entryIndex p = .ok p.entryIndex := by
  unfold entryIndex Program.entryIndex
  cases start : p.entry with
  | none => rfl
  | some l =>
    obtain ⟨i, found⟩ := Option.isSome_iff_exists.1 (Program.isSome_position?_of_entry start)
    rw [Option.bind_some, found]
    exact positionOf_eq found

/-- A checked run does not trap, and is the run. -/
theorem run_eq (writable : p.Writable) (n : Nat) (m : Machine) : run p n m = .ok (p.run n m) := by
  unfold run
  rw [entryIndex_eq, ok_bind, enter_eq p.entryIndex_le.1, ok_bind]
  exact runFrom_eq writable n (p.enter_onLine _ _)

end Checked

end GotoBasic
