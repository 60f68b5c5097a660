import GotoBasic.Proofs.Run.History
import GotoBasic.Proofs.Run.Lockstep
import Mathlib.Data.List.Forall2

/-!
# Leaving a program by a jump

An exit may be written as a jump through a variable that holds `Label.exit`, wherever the exit
stands, if the program does not assign the variable and has no line of its name
(`Program.exit_by_jump`).  Both statements leave the line for the same label, and so the two
programs go in lockstep, on machines that are the same at every step.
-/

namespace GotoBasic

variable {v : String}

/-- `s'` is `s` where jumps through the variable `v` have taken the place of some exits. -/
inductive Stmt.Rerouted (v : String) : Stmt → Stmt → Prop
  | same (s : Stmt) : Rerouted v s s
  | exit (pos pos' : Pos) : Rerouted v (.exit pos) (.goto pos' (some (.name v)))
  | ifThen (pos : Pos) (cond : Expr) {body body' : Stmt} (inner : Rerouted v body body') :
    Rerouted v (.ifThen pos cond body) (.ifThen pos cond body')
  | ifElse (pos : Pos) (cond : Expr) {body body' other other' : Stmt}
    (inner : Rerouted v body body') (inner' : Rerouted v other other') :
    Rerouted v (.ifElse pos cond body other) (.ifElse pos cond body' other')
  | whileThen (pos : Pos) (cond : Expr) {body body' : Stmt} (inner : Rerouted v body body') :
    Rerouted v (.whileThen pos cond body) (.whileThen pos cond body')

structure Line.Rerouted (v : String) (l l' : Line) : Prop where
  label : l'.label = l.label
  stmts : List.Forall₂ (Stmt.Rerouted v) l.stmts l'.stmts

/-- Statements are among their own reroutings. -/
theorem Stmt.rerouted_self (ls : List Stmt) : List.Forall₂ (Stmt.Rerouted v) ls ls :=
  List.forall₂_same.2 fun s _ => .same s

/-! ## Decisions -/

/-- The same action, where other statements may come next. -/
inductive Action.Rerouted (v : String) : Action → Action → Prop
  | same (a : Action) : Rerouted v a a
  | pass {front front' : List Stmt} (stmts : List.Forall₂ (Stmt.Rerouted v) front front') :
    Rerouted v (.pass front) (.pass front')

/-- The same fault, or such actions. -/
inductive Reroutes (v : String) : Except Fault Action → Except Fault Action → Prop
  | error (f : Fault) : Reroutes v (.error f) (.error f)
  | ok {a a' : Action} (actions : a.Rerouted v a') : Reroutes v (.ok a) (.ok a')

/-- Every decision is among its own reroutings. -/
theorem Reroutes.same (r : Except Fault Action) : Reroutes v r r := by
  cases r with
  | error f => exact .error f
  | ok a => exact .ok (.same a)

/-- A condition decides between branches that are reroutings of each other. -/
theorem Reroutes.test {r : Except Fault Bool} {front front' : Bool → List Stmt}
    (stmts : ∀ b, List.Forall₂ (Stmt.Rerouted v) (front b) (front' b)) :
    Reroutes v (r >>= fun b => .ok (.pass (front b))) (r >>= fun b => .ok (.pass (front' b))) := by
  cases r with
  | error f => exact .error f
  | ok b => exact .ok (.pass (stmts b))

/-- A jump through a variable that holds the label of the exit goes there. -/
theorem Program.resolve_eq_exit {p : Program} {env : Env} {w : Value}
    (undeclared : p.position? (.name v) = none) (bound : env.get? v = some w)
    (holds : Label.ofValue? w = some Label.exit) :
    p.resolve env (some (.name v)) = .ok Label.exit := by
  have exit : p.declared? Label.exit = some Label.exit := if_pos (by rw [p.position?_exit]; rfl)
  rw [resolve_of_undeclared undeclared bound, holds, Option.bind_some, exit]

/-- A statement and its rerouting decide alike.  In the place of an exit stands a jump that finds no
label of its own and so goes where the variable says, which is the exit. -/
theorem Stmt.Rerouted.action {p q : Program} {env : Env} {w : Value} {s s' : Stmt}
    (rerouted : s.Rerouted v s') (labels : ∀ l, q.position? l = p.position? l)
    (undeclared : p.position? (.name v) = none) (bound : env.get? v = some w)
    (holds : Label.ofValue? w = some Label.exit) :
    Reroutes v (s.action p env) (s'.action q env) := by
  have same : ∀ l, (q.position? l).isSome = (p.position? l).isSome := by
    intro l
    rw [labels]
  rw [Stmt.action_congr same]
  cases rerouted with
  | same => exact .same _
  | exit pos pos' =>
    have jump : (Stmt.goto pos' (some (.name v))).action p env = .ok (.leave Label.exit) := by
      change (Cause.locate pos' (p.resolve env (some (.name v))) >>= _) = _
      rw [Program.resolve_eq_exit undeclared bound holds]
      rfl
    rw [jump]
    exact .ok (.same _)
  | ifThen pos cond inner =>
    refine Reroutes.test fun b => ?_
    cases b with
    | true => exact .cons inner .nil
    | false => exact .nil
  | ifElse pos cond inner inner' =>
    refine Reroutes.test fun b => ?_
    cases b with
    | true => exact .cons inner .nil
    | false => exact .cons inner' .nil
  | whileThen pos cond inner =>
    refine Reroutes.test fun b => ?_
    cases b with
    | true => exact .cons inner (.cons (.whileThen pos cond inner) .nil)
    | false => exact .nil

/-! ## Runs -/

namespace Program

variable {p q : Program} {w : Value}

/-- The same point of two programs on the same machine, where `v` is bound to `w`. -/
structure Rerouted (p : Program) (v : String) (w : Value) (c c' : Config) : Prop where
  index : c'.index = c.index
  rest : List.Forall₂ (Stmt.Rerouted v) c.rest c'.rest
  machine : c'.machine = c.machine
  onLine : p.OnLine c
  bound : c.machine.env.get? v = some w

/-- Only statements are rerouted, so all labels stay. -/
theorem map_label_of_rerouted {ls ls' : List Line}
    (rerouted : List.Forall₂ (Line.Rerouted v) ls ls') :
    ls'.map Line.label = ls.map Line.label := by
  induction rerouted with
  | nil => rfl
  | cons line _ ih => rw [List.map_cons, List.map_cons, line.label, ih]

theorem getElem?_of_rerouted {ls ls' : List Line}
    (rerouted : List.Forall₂ (Line.Rerouted v) ls ls') (i : Nat) :
    ls[i]? = none ∧ ls'[i]? = none ∨
      ∃ l l', ls[i]? = some l ∧ ls'[i]? = some l' ∧ l.Rerouted v l' := by
  induction rerouted generalizing i with
  | nil => exact .inl ⟨rfl, rfl⟩
  | @cons l l' ls ls' line _ ih =>
    cases i with
    | zero => exact .inr ⟨l, l', rfl, rfl, line⟩
    | succ i => exact ih i

section Lockstep

variable (rerouted : List.Forall₂ (Line.Rerouted v) p.lines q.lines)

include rerouted

/-- Both programs have lines at the same numbers, each a rerouting of the other. -/
theorem line?_of_rerouted (i : Nat) :
    p.line? i = none ∧ q.line? i = none ∨
      ∃ l l', p.line? i = some l ∧ q.line? i = some l' ∧ l.Rerouted v l' := by
  unfold line?
  split
  · exact .inl ⟨rfl, rfl⟩
  · exact getElem?_of_rerouted rerouted (i - 1)

/-- A line is started alike, with statements that are reroutings of each other. -/
theorem enter_rerouted (i : Nat) {m : Machine} (bound : m.env.get? v = some w) :
    Step.Matches (p.Rerouted v w) Eq (p.enter i m) (q.enter i m) := by
  have onLine := p.enter_onLine i m
  unfold enter at onLine ⊢
  rcases line?_of_rerouted rerouted i with ⟨none, none'⟩ | ⟨l, l', found, found', line⟩
  · rw [none, none']
    exact .done rfl
  · rw [found] at onLine ⊢
    rw [found']
    dsimp only
    rw [line.label]
    exact .next ⟨rfl, line.stmts, rfl, onLine _ rfl, bound⟩

theorem follow_rerouted (l : Label) {m : Machine} (bound : m.env.get? v = some w) :
    Step.Matches (p.Rerouted v w) Eq (p.follow l m) (q.follow l m) := by
  have labels := map_label_of_rerouted rerouted
  unfold follow
  rw [position?_congr labels, exitIndex_congr labels]
  exact enter_rerouted rerouted _ bound

/-- One step keeps both runs together.  No statement assigns the variable, so it goes on to hold the
exit. -/
theorem step_rerouted (undeclared : p.position? (.name v) = none) (spares : p.Spares v)
    (holds : Label.ofValue? w = some Label.exit) {c c' : Config} (related : p.Rerouted v w c c') :
    Step.Matches (p.Rerouted v w) Eq (p.step c) (q.step c') := by
  have onLine := step_onLine related.onLine
  have bound := step_spares spares related.onLine
  rw [related.bound] at bound
  rcases c with ⟨i, rest, m⟩
  rcases c' with ⟨i', rest', m'⟩
  rcases related with ⟨rfl, stmts, rfl, -, bound'⟩
  cases stmts with
  | nil => exact enter_rerouted rerouted _ bound'
  | @cons s s' rest rest' stmt stmts =>
    have decision := stmt.action (p := p) (q := q)
      (position?_congr (map_label_of_rerouted rerouted)) undeclared bound' holds
    generalize decides : s.action p m'.env = r at decision
    generalize decides' : s'.action q m'.env = r' at decision
    cases decision with
    | error f =>
      rw [step_of_fault decides, step_of_fault decides']
      exact .failed rfl
    | @ok a a' actions =>
      rw [step_of_action decides] at onLine bound ⊢
      rw [step_of_action decides']
      cases actions with
      | pass front => exact .next ⟨rfl, List.rel_append front stmts, rfl, onLine _ rfl, bound⟩
      | same =>
        cases a with
        | pass front =>
          exact .next ⟨rfl, List.rel_append (Stmt.rerouted_self front) stmts, rfl, onLine _ rfl,
            bound⟩
        | leave l => exact follow_rerouted rerouted l bound'
        | _ => exact .next ⟨rfl, stmts, rfl, onLine _ rfl, bound⟩

/-- By the step, both runs stay together from their entries on. -/
theorem run_rerouted (undeclared : p.position? (.name v) = none) (spares : p.Spares v)
    (holds : Label.ofValue? w = some Label.exit) {m : Machine} (bound : m.env.get? v = some w)
    (n : Nat) : Outcome.Matches (p.Rerouted v w) Eq (p.run n m) (q.run n m) := by
  unfold run
  rw [entryIndex_congr (map_label_of_rerouted rerouted)]
  exact runFrom_lockstep (fun related => step_rerouted rerouted undeclared spares holds related) n
    (enter_rerouted rerouted _ bound)

end Lockstep

/-- Where a variable holds the label of the exit, and the program neither assigns it nor has a line
of its name, a jump through it may take the place of any exits, in other statements too: the
program with the jumps runs as the one with the exits, step by step. -/
theorem exit_by_jump {ls ls' : List Line} (built : ofLines ls = .ok p)
    (rerouted : List.Forall₂ (Line.Rerouted v) ls ls')
    (undeclared : ∀ l ∈ ls, l.label ≠ some (.name v)) (spares : p.Spares v) :
    ∃ q, ofLines ls' = .ok q ∧
      ∀ m w, m.env.get? v = some w → Label.ofValue? w = some Label.exit → ∀ n,
        (q.run n m).ending = (p.run n m).ending ∧ (q.run n m).machine = (p.run n m).machine := by
  have labels := map_label_of_rerouted rerouted
  refine ⟨⟨ls'⟩, ofLines_congr labels built, ?_⟩
  intro m w bound holds n
  rcases ofLines_eq_ok_iff.1 built with ⟨-, rfl⟩
  have absent : (Program.mk ls).position? (.name v) = none :=
    position?_eq_none undeclared fun same => nomatch same
  exact (run_rerouted (p := ⟨ls⟩) (q := ⟨ls'⟩) rerouted absent spares holds bound n).same
    fun related => related.machine

/-- A loop that counts and then leaves the program from within, through a variable that holds a
padded number. -/
theorem exit_by_jump_nested :
    let loop (leave : Stmt) : Line := ⟨⟨1, 1⟩, some (.num 10),
      [.whileThen ⟨1, 4⟩ (.bool ⟨1, 10⟩ true)
        (.ifElse ⟨1, 18⟩ (.binary ⟨1, 21⟩ .greater (.var ⟨1, 21⟩ "n") (.int ⟨1, 25⟩ 1)) leave
          (.assign ⟨1, 47⟩ "n"
            (.binary ⟨1, 55⟩ (.arith .add) (.var ⟨1, 55⟩ "n") (.int ⟨1, 59⟩ 1))))]⟩
    ∃ p q m, ofLines [loop (.exit ⟨1, 32⟩)] = .ok p ∧
      ofLines [loop (.goto ⟨1, 32⟩ (some (.name "stop")))] = .ok q ∧
      m.env = [("n", .int 0), ("stop", .string " -01 ")] ∧ (p.run 10 m).ending = .done ∧
      ∀ n, (q.run n m).ending = (p.run n m).ending ∧
        (q.run n m).machine = (p.run n m).machine := by
  intro loop
  let m : Machine := ⟨[("n", .int 0), ("stop", .string " -01 ")], [], none, []⟩
  have rerouted : List.Forall₂ (Line.Rerouted "stop") [loop (.exit ⟨1, 32⟩)]
      [loop (.goto ⟨1, 32⟩ (some (.name "stop")))] :=
    .cons ⟨rfl, .cons (.whileThen _ _ (.ifElse _ _ (.exit _ _) (.same _))) .nil⟩ .nil
  have holds : Label.ofValue? (.string " -01 ") = some Label.exit := by decide +kernel
  rcases exit_by_jump (p := ⟨[loop (.exit ⟨1, 32⟩)]⟩) rfl rerouted (by decide) (by decide) with
    ⟨q, built, alike⟩
  exact ⟨_, q, m, rfl, built, rfl, by decide +kernel, alike m _ rfl holds⟩

end Program

end GotoBasic
