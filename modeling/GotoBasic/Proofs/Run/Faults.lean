import GotoBasic.Proofs.Kind.Sound
import GotoBasic.Proofs.Program.Loaded

/-!
# What faults name

A fault of a run names variables and operators that stand in the program, and never what a variable
holds.  So the faults of the program of a text name identifiers, labels and operators of the
language (`Program.run_fault_proper`), whatever the variables and the input are.
-/

namespace GotoBasic

/-- The variables and operators that a cause names are such as a text can have.  A jump goes
through a variable that has the text of a label for its name. -/
def Cause.Proper : Cause → Prop
  | .undefinedVariable x => TokenKind.ident.Spelled x
  | .notALabel x => ∃ l : Label, l.Expressible ∧ l.text = x
  | .unsupportedOperands op _ _ => op.isArith ∨ op.isLogic
  | .unknownBinary op => op.isArith ∨ op.isLogic
  | .logicNeedsBool op _ => op.isArith ∨ op.isLogic
  | .unknownUnary op => op.isKnown
  | _ => True

/-- What is wrong with operands is told by their kinds. -/
theorem Cause.OfOperands.proper {c : Cause} (fault : c.OfOperands) : c.Proper := by
  cases fault <;> trivial

/-! ## Operators -/

namespace Value

/-- A binary operator that fails names itself and the kinds of its operands. -/
theorem binary_proper {op : BinaryOp} (known : op.isArith ∨ op.isLogic) (v w : Value) :
    Yields Cause.Proper (fun _ => True) (binary op v w) := by
  cases op with
  | arith a =>
    change Yields _ _ (if _ then _ else _)
    split
    · exact (arith_yields a v w).mono (fun _ => Cause.OfOperands.proper) fun _ _ => trivial
    · exact .error known
  | concat =>
    refine Yields.mono ?_ (fun _ => Cause.OfOperands.proper) fun _ => id
    exact (display_yields v).bind fun s _ => (display_yields w).bind fun t _ => .ok trivial
  | less | greater =>
    unfold binary
    dsimp only
    split
    · exact .ok trivial
    · exact .error known
  | eq | ne => exact .ok trivial
  | and | or | other s =>
    change Yields _ _ (if _ then _ else _)
    split
    · exact .error known
    · exact .error known

/-- A sign or a negation that fails names itself and the kind of its operand. -/
theorem unary_proper {op : UnaryOp} (known : op.isKnown) (v : Value) :
    Yields Cause.Proper (fun _ => True) (unary op v) := by
  cases op with
  | neg =>
    cases v with
    | int n | float x => exact .ok trivial
    | bool b | string s => exact .error trivial
  | not =>
    cases v with
    | bool b => exact .ok trivial
    | int n | float x | string s => exact .error trivial
  | other s => cases known

theorem logical_proper {op : BinaryOp} (known : op.isArith ∨ op.isLogic) (pos : Pos) (v : Value) :
    Yields (fun f => f.cause.Proper) (fun _ => True) (v.logical op pos) := by
  cases v with
  | bool b => exact .ok trivial
  | _ => exact .error known

end Value

/-! ## Expressions and statements -/

variable {p : Program}

/-- By induction on the expression.  Its variables and operators are those that a text can hold. -/
theorem Expr.eval_proper {e : Expr} (expressible : e.Expressible) (env : Env) :
    Yields (fun f => f.cause.Proper) (fun _ => True) (e.eval env) := by
  induction e with
  | var pos x =>
    unfold eval
    cases env.get? x with
    | some v => exact .ok trivial
    | none => exact .error expressible
  | unary pos op e ih =>
    obtain ⟨known, inner⟩ := expressible
    exact (ih inner).bind fun v _ => (Value.unary_proper known v).locate pos
  | binary pos op l r ihl ihr =>
    obtain ⟨known, left, right⟩ := expressible
    refine (ihl left).bind fun v _ => ?_
    cases op.settledBy? with
    | some settled =>
      refine (Value.logical_proper known pos v).bind fun a _ => ?_
      split
      · exact .ok trivial
      · refine (ihr right).bind fun w _ => ?_
        exact (Value.logical_proper known pos w).bind fun _ _ => .ok trivial
    | none => exact (ihr right).bind fun w _ => (Value.binary_proper known v w).locate pos
  | unknown pos => exact expressible.elim
  | _ => exact .ok trivial

theorem Expr.test_proper {e : Expr} (expressible : e.Expressible) (statement : Conditional)
    (env : Env) : Yields (fun f => f.cause.Proper) (fun _ => True) (e.test statement env) := by
  refine (eval_proper expressible env).bind fun v _ => ?_
  cases v with
  | bool b => exact .ok trivial
  | _ => exact .error trivial

/-- A jump that fails names its target, as a label or as the variable that holds none. -/
theorem Program.resolve_proper {l : Label} (expressible : l.Expressible) (env : Env) :
    Yields Cause.Proper (fun _ => True) (p.resolve env (some l)) := by
  unfold resolve
  split
  · exact .ok trivial
  · dsimp only
    split
    · exact .error trivial
    · split
      · exact .ok trivial
      · exact .error ⟨l, expressible, rfl⟩

/-- A statement that a text can have fails only with causes that name what a text can have. -/
theorem Stmt.action_proper {s : Stmt} (expressible : s.Expressible) (env : Env) :
    Yields (fun f => f.cause.Proper) (fun _ => True) (s.action p env) := by
  cases s with
  | print pos e =>
    refine (Expr.eval_proper expressible env).bind fun v _ => ?_
    have shown := (Value.display_yields v).mono (fun _ => Cause.OfOperands.proper) fun _ => id
    exact (shown.locate pos).bind fun _ _ => .ok trivial
  | assign pos x e => exact (Expr.eval_proper expressible.2 env).bind fun _ _ => .ok trivial
  | ifThen pos cond body | ifElse pos cond body other | whileThen pos cond body =>
    exact (Expr.test_proper expressible.1 _ env).bind fun _ _ => .ok trivial
  | goto pos target =>
    obtain ⟨l, rfl, named⟩ := expressible
    exact ((Program.resolve_proper named env).locate pos).bind fun _ _ => .ok trivial
  | unknown pos => exact expressible.elim
  | _ => exact .ok trivial

/-! ## Runs -/

/-- What fails is a statement that stands on a line of the program. -/
theorem Program.exists_action_of_run_failed {n : Nat} {m m' : Machine} {f : Fault}
    (fails : p.run n m = .failed f m') :
    ∃ l ∈ p.lines, ∃ s ∈ l.parts, ∃ env, s.action p env = .error f := by
  obtain ⟨k, -, c, reached, step⟩ := run_failed fails
  obtain ⟨s, rest, next, decides, -⟩ := action_of_step_failed step
  obtain ⟨l, mem, part⟩ := (run_onLine reached).exists_mem_parts next
  exact ⟨l, mem, s, part, c.machine.env, decides⟩

/-- The statement that failed is one of the program, and so one of a text. -/
theorem Program.run_fault_proper {source : String} (loads : load source = .ok p) {n : Nat}
    {m m' : Machine} {f : Fault} (fails : p.run n m = .failed f m') : f.cause.Proper := by
  obtain ⟨l, mem, s, part, env, decides⟩ := exists_action_of_run_failed fails
  have proper := Stmt.action_proper (p := p) (expressible_of_load loads mem part) env
  rw [decides] at proper
  cases proper with
  | error holds => exact holds

end GotoBasic
