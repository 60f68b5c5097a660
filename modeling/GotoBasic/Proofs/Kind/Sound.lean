import GotoBasic.Load
import GotoBasic.Proofs.Kind.Rules
import GotoBasic.Proofs.Program.Labels

/-!
# Kinds are kept

A program that obeys the rules of kinds never binds a variable to a value of another kind, however
long it runs, and fails only in ways that no kinds rule out (`Program.kinds_sound`).  Every function
from values to values keeps to the tables (`Value.binary_yields`, `Value.unary_yields`), so
expressions do (`Expr.eval_yields`), so the actions of statements do (`Stmt.action_yields`), and so
does every step of a run (`Program.step_kinded`).
-/

namespace GotoBasic

/-! ## Results -/

/-- A result with a given property, or an error with a given property. -/
inductive Yields {ε α : Type} (fault : ε → Prop) (post : α → Prop) : Except ε α → Prop
  | ok {a : α} (holds : post a) : Yields fault post (.ok a)
  | error {e : ε} (holds : fault e) : Yields fault post (.error e)

namespace Yields

variable {ε α β : Type} {fault : ε → Prop} {post : α → Prop} {post' : β → Prop} {x : Except ε α}

theorem bind {next : α → Except ε β} (yields : Yields fault post x)
    (more : ∀ a, post a → Yields fault post' (next a)) : Yields fault post' (x >>= next) := by
  cases yields with
  | ok holds => exact more _ holds
  | error holds => exact .error holds

theorem mono {fault' : ε → Prop} {post' : α → Prop} (yields : Yields fault post x)
    (errors : ∀ e, fault e → fault' e) (results : ∀ a, post a → post' a) :
    Yields fault' post' x := by
  cases yields with
  | ok holds => exact .ok (results _ holds)
  | error holds => exact .error (errors _ holds)

theorem locate {fault : Cause → Prop} {x : Except Cause α} (yields : Yields fault post x)
    (pos : Pos) : Yields (fun f => fault f.cause) post (Cause.locate pos x) := by
  cases yields with
  | ok holds => exact .ok holds
  | error holds => exact .error holds

end Yields

/-! ## Values -/

namespace Value

theorem exists_bool {v : Value} (kind : v.kind = .bool) : ∃ b, v = .bool b := by
  cases v with
  | bool b => exact ⟨b, rfl⟩
  | _ => cases kind

theorem toFloat_yields (op : ArithOp) (v : Value) :
    Yields Cause.OfOperands (fun _ => True) (v.toFloat op) := by
  cases v with
  | int n =>
    unfold toFloat
    dsimp only
    split
    · exact .ok trivial
    · exact .error (.numericOverflow op)
  | float x => exact .ok trivial
  | _ => exact .error (.numericOverflow op)

theorem arithInt_yields (op : ArithOp) (a b : Int) :
    Yields Cause.OfOperands (fun u => u.kind = op.kind .int .int) (arithInt op a b) := by
  cases op with
  | div =>
    unfold arithInt
    dsimp only
    split
    · exact .ok rfl
    · exact .error (.numericOverflow .div)
  | _ => exact .ok rfl

theorem arithFloat_yields (op : ArithOp) (x y : Binary64) :
    Yields Cause.OfOperands (fun u => u.kind = .float) (arithFloat op x y) := by
  cases op with
  | quot =>
    unfold arithFloat
    dsimp only
    split
    · exact .ok rfl
    · exact .error (.numericOverflow .quot)
  | _ => exact .ok rfl

/-- If one of two operands is no integer, a numeric operator gives a float. -/
theorem kind_eq_float {op : ArithOp} {v w : Value} (mixed : ∀ a b, v = .int a → w ≠ .int b) :
    op.kind v.kind w.kind = .float := by
  have differ : ¬ (v.kind = .int ∧ w.kind = .int) := by
    rintro ⟨left, right⟩
    cases v with
    | int a =>
      cases w with
      | int b => exact mixed a b rfl rfl
      | _ => cases right
    | _ => cases left
  cases op with
  | div => rfl
  | _ => exact if_neg differ

theorem arith_yields (op : ArithOp) (v w : Value) :
    Yields Cause.OfOperands (fun u => u.kind = op.kind v.kind w.kind) (arith op v w) := by
  unfold arith
  split
  · exact .error .divisionByZero
  · split
    · exact arithInt_yields op _ _
    next mixed =>
      rw [kind_eq_float fun a b left right => mixed a b left right]
      refine (toFloat_yields op v).bind fun x _ => ?_
      exact (toFloat_yields op w).bind fun y _ => arithFloat_yields op x y

theorem display_yields (v : Value) : Yields Cause.OfOperands (fun _ => True) v.display := by
  unfold display
  split
  · exact .ok trivial
  next none =>
    -- Only integers can have no display text.
    cases v with
    | int n => exact .error .tooLargeToDisplay
    | _ => cases none

/-- Numbers have an order, and so have strings. -/
theorem exists_less? {v w : Value}
    (ordered : v.kind.isNumeric ∧ w.kind.isNumeric ∨ v.kind = .string ∧ w.kind = .string) :
    ∃ b, less? v w = some b := by
  cases v <;> cases w <;> simp_all [kind, Kind.isNumeric, less?]

theorem binary_yields {op : BinaryOp} {v w : Value} {k : Kind} (whole : op.settledBy? = none)
    (rule : op.kind? v.kind w.kind = some k) :
    Yields Cause.Dynamic (fun u => u.kind = k) (binary op v w) := by
  cases op with
  | arith op =>
    change (if _ then _ else _) = _ at rule
    split at rule
    next numeric =>
      cases rule
      have applies : binary (.arith op) v w = arith op v w := if_pos (by simpa using numeric)
      rw [applies]
      exact (arith_yields op v w).mono (fun _ => Cause.OfOperands.dynamic) fun _ => id
    · cases rule
  | concat =>
    cases rule
    refine Yields.mono ?_ (fun _ => Cause.OfOperands.dynamic) fun _ => id
    refine (display_yields v).bind fun s _ => ?_
    exact (display_yields w).bind fun t _ => .ok rfl
  | less =>
    change (if _ then _ else _) = _ at rule
    split at rule
    next ordered =>
      cases rule
      obtain ⟨b, found⟩ := exists_less? ordered
      unfold binary
      rw [found]
      exact .ok rfl
    · cases rule
  | greater =>
    change (if _ then _ else _) = _ at rule
    split at rule
    next ordered =>
      cases rule
      obtain ⟨b, found⟩ := exists_less? (v := w) (w := v) (ordered.imp And.symm And.symm)
      unfold binary
      rw [found]
      exact .ok rfl
    · cases rule
  | eq =>
    cases rule
    exact .ok rfl
  | ne =>
    cases rule
    exact .ok rfl
  | and => cases whole
  | or => cases whole
  | other s => cases rule

theorem unary_yields {op : UnaryOp} {v : Value} {k : Kind} (rule : op.kind? v.kind = some k) :
    Yields Cause.Dynamic (fun u => u.kind = k) (unary op v) := by
  cases op with
  | neg =>
    cases v with
    | int n | float x =>
      cases rule
      exact .ok rfl
    | _ => cases rule
  | not =>
    cases v with
    | bool b =>
      cases rule
      exact .ok rfl
    | _ => cases rule
  | other s => cases rule

theorem logical_yields {v : Value} (kind : v.kind = .bool) (op : BinaryOp) (pos : Pos) :
    Yields (fun f => f.cause.Dynamic) (fun _ => True) (v.logical op pos) := by
  obtain ⟨b, rfl⟩ := exists_bool kind
  exact .ok trivial

end Value

/-! ## Expressions -/

variable {G : String → Kind} {env : Env}

/-- A logical operator takes truth values only. -/
theorem BinaryOp.kind?_of_settledBy? {op : BinaryOp} {settled : Bool} {a b k : Kind}
    (settles : op.settledBy? = some settled) (rule : op.kind? a b = some k) :
    a = .bool ∧ b = .bool ∧ k = .bool := by
  cases op with
  | and | or =>
    change (if _ then _ else _) = _ at rule
    split at rule
    next truths =>
      cases rule
      exact ⟨truths.1, truths.2, rfl⟩
    · cases rule
  | _ => cases settles

/-- An expression gives a value of its kind, or fails in a way that no kinds rule out. -/
theorem Expr.eval_yields {e : Expr} {k : Kind} (conforms : env.Conforms G)
    (rule : e.kind? G = some k) :
    Yields (fun f => f.cause.Dynamic) (fun v => v.kind = k) (e.eval env) := by
  induction e generalizing k with
  | var pos x =>
    cases rule
    unfold eval
    cases found : env.get? x with
    | some v => exact .ok (conforms x v found)
    | none => exact .error (.undefinedVariable x)
  | unary pos op e ih =>
    obtain ⟨a, inner, rule⟩ := Option.bind_eq_some_iff.1 rule
    refine (ih inner).bind fun v kind => (Value.unary_yields ?_).locate pos
    rw [kind]
    exact rule
  | binary pos op l r ihl ihr =>
    obtain ⟨a, left, rest⟩ := Option.bind_eq_some_iff.1 rule
    obtain ⟨b, right, rule⟩ := Option.bind_eq_some_iff.1 rest
    refine (ihl left).bind fun v kind => ?_
    cases settles : op.settledBy? with
    | some settled =>
      obtain ⟨rfl, rfl, rfl⟩ := BinaryOp.kind?_of_settledBy? settles rule
      refine (Value.logical_yields kind op pos).bind fun x _ => ?_
      split
      · exact .ok rfl
      · refine (ihr right).bind fun w kind' => ?_
        exact (Value.logical_yields kind' op pos).bind fun _ _ => .ok rfl
    | none =>
      refine (ihr right).bind fun w kind' => (Value.binary_yields settles ?_).locate pos
      rw [kind, kind']
      exact rule
  | unknown pos => cases rule
  | _ =>
    cases rule
    exact .ok rfl

theorem Expr.test_yields {e : Expr} (conforms : env.Conforms G) (rule : e.kind? G = some .bool)
    (statement : Conditional) :
    Yields (fun f => f.cause.Dynamic) (fun _ => True) (e.test statement env) := by
  refine (eval_yields conforms rule).bind fun v kind => ?_
  obtain ⟨b, rfl⟩ := Value.exists_bool kind
  exact .ok trivial

/-! ## Statements -/

theorem Program.resolve_yields (p : Program) (env : Env) (target : Option Label) :
    Yields Cause.Dynamic (fun _ => True) (p.resolve env target) := by
  unfold resolve
  split
  · exact .ok trivial
  · dsimp only
    split
    · exact .error (.undefinedLabel target)
    · split
      · exact .ok trivial
      · exact .error (.notALabel _)

/-- An action puts only statements before the others that obey the rules, and binds variables only
to values of their kinds. -/
def Action.Keeps (G : String → Kind) : Action → Prop
  | .pass front => ∀ s ∈ front, s.WellKinded G
  | .read x => G x = .string
  | .assign x v => v.kind = G x
  | .write _ => True
  | .leave _ => True

theorem Stmt.action_yields {s : Stmt} (p : Program) (conforms : env.Conforms G)
    (kinded : s.WellKinded G) :
    Yields (fun f => f.cause.Dynamic) (Action.Keeps G) (s.action p env) := by
  cases s with
  | print pos e =>
    obtain ⟨k, rule⟩ := Option.isSome_iff_exists.1 kinded
    refine (Expr.eval_yields conforms rule).bind fun v _ => ?_
    have shown := (Value.display_yields v).mono (fun _ => Cause.OfOperands.dynamic) fun _ => id
    exact (shown.locate pos).bind fun _ _ => .ok trivial
  | input pos x => exact .ok kinded
  | assign pos x e => exact (Expr.eval_yields conforms kinded).bind fun v kind => .ok kind
  | ifThen pos cond body =>
    refine (Expr.test_yields conforms kinded.1 .ifThen).bind fun b _ => .ok ?_
    cases b with
    | true => exact List.forall_mem_singleton.2 kinded.2
    | false => exact List.forall_mem_nil _
  | ifElse pos cond body other =>
    refine (Expr.test_yields conforms kinded.1 .ifThen).bind fun b _ => .ok ?_
    cases b with
    | true => exact List.forall_mem_singleton.2 kinded.2.1
    | false => exact List.forall_mem_singleton.2 kinded.2.2
  | whileThen pos cond body =>
    refine (Expr.test_yields conforms kinded.1 .whileThen).bind fun b _ => .ok ?_
    cases b with
    | true => exact List.forall_mem_cons.2 ⟨kinded.2, List.forall_mem_singleton.2 kinded⟩
    | false => exact List.forall_mem_nil _
  | goto pos target =>
    exact ((p.resolve_yields env target).locate pos).bind fun _ _ => .ok trivial
  | nop pos => exact .ok (List.forall_mem_nil _)
  | exit pos => exact .ok trivial
  | unknown pos => exact kinded.elim

theorem Env.Conforms.set (conforms : env.Conforms G) {x : String} {v : Value}
    (kind : v.kind = G x) : (env.set x v).Conforms G := by
  intro y w found
  rw [Env.get?_set] at found
  split at found
  next same =>
    cases found
    rw [kind, same]
  · exact conforms y w found

/-! ## Runs -/

/-- The variables have values of their kinds, and the statements still to run obey the rules. -/
structure Config.Kinded (G : String → Kind) (c : Config) : Prop where
  env : c.machine.env.Conforms G
  rest : ∀ s ∈ c.rest, s.WellKinded G

/-- A step that keeps the kinds and fails only in ways that no kinds rule out. -/
def Step.Kinded (G : String → Kind) : Step → Prop
  | .next c => c.Kinded G
  | .done m => m.env.Conforms G
  | .failed f m => f.cause.Dynamic ∧ m.env.Conforms G

namespace Program

variable {p : Program}

theorem enter_kinded (kinded : p.WellKinded G) (i : Nat) {m : Machine}
    (conforms : m.env.Conforms G) : (p.enter i m).Kinded G := by
  unfold enter
  cases found : p.line? i with
  | none => exact conforms
  | some l => exact ⟨conforms, kinded l (mem_lines_of_line? found)⟩

theorem goOn_kinded (kinded : p.WellKinded G) {i : Nat} {m : Machine} {rest : List Stmt}
    {a : Action} (conforms : m.env.Conforms G) (obeys : ∀ s ∈ rest, s.WellKinded G)
    (keeps : a.Keeps G) : (p.goOn i (a.perform m rest)).Kinded G := by
  cases a with
  | pass front => exact ⟨conforms, List.forall_mem_append.2 ⟨keeps, obeys⟩⟩
  | write s => exact ⟨conforms, obeys⟩
  | read x => exact ⟨conforms.set (Eq.symm keeps), obeys⟩
  | assign x v => exact ⟨conforms.set keeps, obeys⟩
  | leave l => exact enter_kinded kinded _ conforms

/-- A step keeps the kinds. -/
theorem step_kinded (kinded : p.WellKinded G) {c : Config} (here : c.Kinded G) :
    (p.step c).Kinded G := by
  rcases here with ⟨conforms, obeys⟩
  rcases p.step_cases c with ⟨i, m, rfl, step⟩ | ⟨i, s, rest, m, f, rfl, decides, step⟩ |
    ⟨i, s, rest, m, a, rfl, decides, step⟩
  · rw [step]
    exact enter_kinded kinded _ conforms
  · have yields := Stmt.action_yields p conforms (List.forall_mem_cons.1 obeys).1
    rw [decides] at yields
    rw [step]
    cases yields with
    | error holds => exact ⟨holds, conforms⟩
  · rcases List.forall_mem_cons.1 obeys with ⟨first, later⟩
    have yields := Stmt.action_yields p conforms first
    rw [decides] at yields
    rw [step]
    cases yields with
    | ok keeps => exact goOn_kinded kinded conforms later keeps

/-- What a step gives that keeps the kinds, a run keeps. -/
theorem runFrom_kinded (kinded : p.WellKinded G) (n : Nat) {s : Step} (start : s.Kinded G) :
    (p.runFrom n s).machine.env.Conforms G ∧
      ∀ f m, p.runFrom n s = .failed f m → f.cause.Dynamic := by
  fun_induction p.runFrom n s with
  | case1 n m => exact ⟨start, fun f m' same => by cases same⟩
  | case2 n f m =>
    refine ⟨start.2, fun f' m' same => ?_⟩
    cases same
    exact start.1
  | case3 c => exact ⟨start.env, fun f m same => by cases same⟩
  | case4 n c ih => exact ih (step_kinded kinded start)

/-- A program that obeys the rules of kinds keeps the kinds of its variables as long as it runs,
and if it fails, then in a way that no kinds rule out. -/
theorem kinds_sound {m : Machine} (kinded : p.WellKinded G) (conforms : m.env.Conforms G)
    (n : Nat) :
    (p.run n m).machine.env.Conforms G ∧ ∀ f m', p.run n m = .failed f m' → f.cause.Dynamic :=
  runFrom_kinded kinded n (enter_kinded kinded _ conforms)

/-- A line is read, a loop counts, and then a number is divided by the zero of floats. -/
theorem kinds_sound_counting :
    ∃ (G : String → Kind) (p : Program) (m : Machine),
      load "10 INPUT t \\ WHILE n < 2 THEN LET n = n + 1\n20 PRINT n / x ++ t" = .ok p ∧
      G "n" = .int ∧ G "x" = .float ∧ p.WellKinded G ∧
      m.env = [("n", .int 0), ("x", .float (.finite true 0))] ∧ m.env.Conforms G ∧
      (p.run 9 m).fault? = some ⟨.divisionByZero, ⟨2, 10⟩⟩ ∧
      (p.run 9 m).machine.env.Conforms G ∧
      ∀ f m', p.run 9 m = .failed f m' → f.cause.Dynamic := by
  let G : String → Kind := fun x => if x = "n" then .int else if x = "x" then .float else .string
  let m : Machine := ⟨[("n", .int 0), ("x", .float (.finite true 0))], ["q"], none, []⟩
  have conforms : m.env.Conforms G := by
    have empty : Env.Conforms G [] := fun _ _ none => nomatch none
    have first : Env.Conforms G (Env.set [] "n" (.int 0)) := empty.set rfl
    exact first.set (x := "x") (v := .float (.finite true 0)) rfl
  have loaded (source : String) (checked : (load source).toOption.any fun p =>
      decide (p.WellKinded G ∧ (p.run 9 m).fault? = some ⟨.divisionByZero, ⟨2, 10⟩⟩)) :
      ∃ p, load source = .ok p ∧ p.WellKinded G ∧
        (p.run 9 m).fault? = some ⟨.divisionByZero, ⟨2, 10⟩⟩ := by
    cases loads : load source with
    | error e =>
      rw [loads] at checked
      cases checked
    | ok p =>
      rw [loads] at checked
      exact ⟨p, rfl, of_decide_eq_true checked⟩
  obtain ⟨p, loads, kinded, fails⟩ := loaded
    "10 INPUT t \\ WHILE n < 2 THEN LET n = n + 1\n20 PRINT n / x ++ t" (by decide +kernel)
  exact ⟨G, p, m, loads, rfl, rfl, kinded, rfl, conforms, fails, kinds_sound kinded conforms 9⟩

end Program

end GotoBasic
