import GotoBasic.Proofs.Program.Labels
import GotoBasic.Proofs.Run.Action

/-!
# Runs stay on the lines of the program

A run is always at a line of the program, all that is still to be done on it stands on that line,
and the instruction pointer is not set (`Program.OnLine`).  One step keeps this
(`Program.step_onLine`), since jumps go only to labels that the program has, and so every run does
(`Program.run_onLine`).  What fails is a node of the line that is being run
(`Program.step_fault_pos`).
-/

namespace GotoBasic

/-! ## The nodes of a line -/

/-- The positions of an expression and of all expressions in it. -/
def Expr.positions : Expr → List Pos
  | .unary pos _ e => pos :: e.positions
  | .binary pos _ l r => pos :: (l.positions ++ r.positions)
  | e => [e.pos]

/-- A statement and all statements in it. -/
def Stmt.parts : Stmt → List Stmt
  | .ifThen pos cond body => .ifThen pos cond body :: body.parts
  | .ifElse pos cond body other => .ifElse pos cond body other :: (body.parts ++ other.parts)
  | .whileThen pos cond body => .whileThen pos cond body :: body.parts
  | s => [s]

/-- The positions of a statement and of the expressions in it, less those of the statements in
it. -/
def Stmt.positions : Stmt → List Pos
  | .print pos e => pos :: e.positions
  | .input pos _ => [pos]
  | .assign pos _ e => pos :: e.positions
  | .ifThen pos cond _ => pos :: cond.positions
  | .ifElse pos cond _ _ => pos :: cond.positions
  | .whileThen pos cond _ => pos :: cond.positions
  | .goto pos _ => [pos]
  | .nop pos => [pos]
  | .exit pos => [pos]
  | .unknown pos => [pos]

/-- All statements of a line, those in other statements included. -/
def Line.parts (l : Line) : List Stmt := l.stmts.flatMap Stmt.parts

/-- The positions of all statements and expressions of a line. -/
def Line.positions (l : Line) : List Pos := l.parts.flatMap Stmt.positions

theorem Expr.pos_mem_positions (e : Expr) : e.pos ∈ e.positions := by
  cases e <;> exact List.mem_cons_self

theorem Stmt.mem_parts (s : Stmt) : s ∈ s.parts := by
  cases s <;> exact List.mem_cons_self

/-- The statements in a part of a statement are in the statement. -/
theorem Stmt.parts_subset {s t : Stmt} (mem : t ∈ s.parts) : t.parts ⊆ s.parts := by
  induction s with
  | ifThen pos cond body ih =>
    rcases List.mem_cons.1 mem with rfl | inner
    · exact List.Subset.refl _
    · exact List.subset_cons_of_subset _ (ih inner)
  | ifElse pos cond body other ih ih' =>
    rcases List.mem_cons.1 mem with rfl | inner
    · exact List.Subset.refl _
    · refine List.subset_cons_of_subset _ ?_
      rcases List.mem_append.1 inner with inner | inner
      · exact List.subset_append_of_subset_left _ (ih inner)
      · exact List.subset_append_of_subset_right _ (ih' inner)
  | whileThen pos cond body ih =>
    rcases List.mem_cons.1 mem with rfl | inner
    · exact List.Subset.refl _
    · exact List.subset_cons_of_subset _ (ih inner)
  | _ =>
    rw [List.mem_singleton.1 mem]
    exact List.Subset.refl _

theorem Line.parts_subset {l : Line} {s : Stmt} (mem : s ∈ l.parts) : s.parts ⊆ l.parts := by
  obtain ⟨t, onLine, inner⟩ := List.mem_flatMap.1 mem
  intro u part
  exact List.mem_flatMap.2 ⟨t, onLine, Stmt.parts_subset inner part⟩

theorem Line.stmts_subset (l : Line) : l.stmts ⊆ l.parts := by
  intro s mem
  exact List.mem_flatMap.2 ⟨s, mem, s.mem_parts⟩

/-! ## What expressions and statements give -/

/-- A result with a given property, or a fault at one of the given places. -/
def Meets {α : Type} (places : List Pos) (post : α → Prop) : Except Fault α → Prop
  | .ok a => post a
  | .error f => f.pos ∈ places

namespace Meets

variable {α β : Type} {places : List Pos} {post : α → Prop} {post' : β → Prop}
  {x : Except Fault α}

theorem bind {next : α → Except Fault β} (meets : Meets places post x)
    (more : ∀ a, post a → Meets places post' (next a)) : Meets places post' (x >>= next) := by
  cases x with
  | error f => exact meets
  | ok a => exact more a meets

theorem mono {places' : List Pos} (meets : Meets places post x) (sub : places ⊆ places') :
    Meets places' post x := by
  cases x with
  | error f => exact sub meets
  | ok a => exact meets

theorem locate {pos : Pos} (mem : pos ∈ places) {x : Except Cause α}
    (holds : ∀ a, x = .ok a → post a) : Meets places post (Cause.locate pos x) := by
  cases x with
  | error c => exact mem
  | ok a => exact holds a rfl

end Meets

theorem Value.logical_meets {places : List Pos} {pos : Pos} (mem : pos ∈ places) (op : BinaryOp)
    (v : Value) : Meets places (fun _ => True) (v.logical op pos) := by
  cases v with
  | bool b => trivial
  | _ => exact mem

/-- An expression fails at one of its own nodes. -/
theorem Expr.eval_meets (env : Env) (e : Expr) :
    Meets e.positions (fun _ => True) (e.eval env) := by
  induction e with
  | var pos x =>
    unfold eval
    cases env.get? x with
    | some v => trivial
    | none => exact List.mem_cons_self
  | unary pos op e ih =>
    refine (ih.mono (List.subset_cons_self pos _)).bind fun v _ => ?_
    exact .locate List.mem_cons_self fun _ _ => trivial
  | binary pos op l r ihl ihr =>
    have here : pos ∈ (Expr.binary pos op l r).positions := List.mem_cons_self
    have left : l.positions ⊆ (Expr.binary pos op l r).positions :=
      List.subset_cons_of_subset pos (List.subset_append_left _ _)
    have right : r.positions ⊆ (Expr.binary pos op l r).positions :=
      List.subset_cons_of_subset pos (List.subset_append_right _ _)
    refine (ihl.mono left).bind fun v _ => ?_
    cases op.settledBy? with
    | some settled =>
      refine (Value.logical_meets here op v).bind fun a _ => ?_
      split
      · trivial
      · refine (ihr.mono right).bind fun w _ => ?_
        exact (Value.logical_meets here op w).bind fun _ _ => trivial
    | none =>
      refine (ihr.mono right).bind fun w _ => ?_
      exact .locate here fun _ _ => trivial
  | unknown pos => exact List.mem_cons_self
  | _ => trivial

theorem Expr.test_meets (env : Env) (statement : Conditional) (e : Expr) :
    Meets e.positions (fun _ => True) (e.test statement env) := by
  refine (e.eval_meets env).bind fun v _ => ?_
  cases v with
  | bool b => trivial
  | _ => exact e.pos_mem_positions

theorem Program.position?_of_declared? {p : Program} {x : Option Label} {l : Label}
    (found : x.bind p.declared? = some l) : ∃ i, p.position? l = some i := by
  obtain ⟨l', -, found⟩ := Option.bind_eq_some_iff.1 found
  unfold declared? at found
  split at found
  next has =>
    cases found
    exact Option.isSome_iff_exists.1 has
  · cases found

/-- A jump goes to a label that the program has. -/
theorem Program.position?_of_resolve {p : Program} {env : Env} {target : Option Label} {l : Label}
    (resolves : p.resolve env target = .ok l) : ∃ i, p.position? l = some i := by
  unfold resolve at resolves
  split at resolves
  next found =>
    cases resolves
    exact position?_of_declared? found
  · dsimp only at resolves
    split at resolves
    · cases resolves
    · split at resolves
      next found =>
        cases resolves
        exact position?_of_declared? found
      · cases resolves

/-- What a statement may do: it puts only statements in it before the others, and it leaves the
line only for a label of the program. -/
def Action.Fits (p : Program) (s : Stmt) : Action → Prop
  | .pass front => front ⊆ s.parts
  | .leave l => ∃ i, p.position? l = some i
  | _ => True

/-- A statement fails at one of its own nodes, or does what it may do. -/
theorem Stmt.action_meets (p : Program) (env : Env) (s : Stmt) :
    Meets s.positions (Action.Fits p s) (s.action p env) := by
  cases s with
  | print pos e =>
    refine ((e.eval_meets env).mono (List.subset_cons_self pos _)).bind fun v _ => ?_
    have shown : Meets (pos :: e.positions) (fun _ => True) (Cause.locate pos v.display) :=
      .locate List.mem_cons_self fun _ _ => trivial
    exact shown.bind fun _ _ => trivial
  | assign pos x e =>
    exact ((e.eval_meets env).mono (List.subset_cons_self pos _)).bind fun _ _ => trivial
  | ifThen pos cond body =>
    have inner : [body] ⊆ (Stmt.ifThen pos cond body).parts :=
      List.cons_subset.2 ⟨List.mem_cons_of_mem _ body.mem_parts, List.nil_subset _⟩
    refine ((cond.test_meets env _).mono (List.subset_cons_self pos _)).bind fun b _ => ?_
    cases b with
    | true => exact inner
    | false => exact List.nil_subset _
  | ifElse pos cond body other =>
    refine ((cond.test_meets env _).mono (List.subset_cons_self pos _)).bind fun b _ => ?_
    refine List.cons_subset.2 ⟨List.mem_cons_of_mem _ ?_, List.nil_subset _⟩
    cases b with
    | true => exact List.mem_append_left _ body.mem_parts
    | false => exact List.mem_append_right _ other.mem_parts
  | whileThen pos cond body =>
    have inner : [body, .whileThen pos cond body] ⊆ (Stmt.whileThen pos cond body).parts :=
      List.cons_subset.2 ⟨List.mem_cons_of_mem _ body.mem_parts,
        List.cons_subset.2 ⟨Stmt.mem_parts _, List.nil_subset _⟩⟩
    refine ((cond.test_meets env _).mono (List.subset_cons_self pos _)).bind fun b _ => ?_
    cases b with
    | true => exact inner
    | false => exact List.nil_subset _
  | goto pos target =>
    have resolved : Meets [pos] (fun l => ∃ i, p.position? l = some i)
        (Cause.locate pos (p.resolve env target)) :=
      .locate List.mem_cons_self fun _ resolves => Program.position?_of_resolve resolves
    exact resolved.bind fun _ found => found
  | exit pos => exact ⟨p.exitIndex, p.position?_exit⟩
  | nop pos => exact List.nil_subset _
  | input pos x => trivial
  | unknown pos => exact List.mem_cons_self

/-! ## Runs -/

/-- If a step leads on, then to a point where `P` holds. -/
def Step.All (P : Config → Prop) (s : Step) : Prop := ∀ c, s = .next c → P c

namespace Program

variable {p : Program} {c : Config}

/-- A run is at a line of the program, has only statements of this line before it, and is not
about to jump. -/
structure OnLine (p : Program) (c : Config) : Prop where
  line : ∃ l, p.line? c.index = some l ∧ c.rest ⊆ l.parts
  ip : c.machine.ip = none

theorem OnLine.bounds (onLine : p.OnLine c) : 1 ≤ c.index ∧ c.index ≤ p.lines.length := by
  obtain ⟨l, found, -⟩ := onLine.line
  exact le_length_of_line? found

/-- The statement that is next stands on a line of the program. -/
theorem OnLine.exists_mem_parts {s : Stmt} {rest : List Stmt} (onLine : p.OnLine c)
    (next : c.rest = s :: rest) : ∃ l ∈ p.lines, s ∈ l.parts := by
  obtain ⟨l, found, sub⟩ := onLine.line
  rw [next] at sub
  exact ⟨l, mem_lines_of_line? found, sub List.mem_cons_self⟩

theorem enter_onLine (p : Program) (i : Nat) (m : Machine) : Step.All p.OnLine (p.enter i m) := by
  intro c entered
  unfold enter at entered
  cases found : p.line? i with
  | none =>
    rw [found] at entered
    cases entered
  | some l =>
    rw [found] at entered
    cases entered
    exact ⟨⟨l, found, l.stmts_subset⟩, rfl⟩

/-- After a statement of a line, the run is on the same line or enters another. -/
theorem goOn_onLine {i : Nat} {s : Stmt} {rest : List Stmt} {m : Machine} {a : Action}
    (onLine : p.OnLine ⟨i, s :: rest, m⟩) (fits : a.Fits p s) :
    Step.All p.OnLine (p.goOn i (a.perform m rest)) := by
  obtain ⟨⟨l, found, sub⟩, unset⟩ := onLine
  obtain ⟨mem, later⟩ := List.cons_subset.1 sub
  have stays {front : List Stmt} {m' : Machine} (inner : front ⊆ s.parts) (unset : m'.ip = none) :
      Step.All p.OnLine (.next ⟨i, front ++ rest, m'⟩) := by
    intro c same
    cases same
    have inside : front ⊆ l.parts := List.Subset.trans inner (Line.parts_subset mem)
    exact ⟨⟨l, found, List.append_subset.2 ⟨inside, later⟩⟩, unset⟩
  cases a with
  | pass front => exact stays fits unset
  | write s => exact stays (List.nil_subset _) unset
  | read x => exact stays (List.nil_subset _) unset
  | assign x v => exact stays (List.nil_subset _) unset
  | leave l => exact p.enter_onLine _ _

/-- A step from a line of the program leads to a line of the program, if it leads anywhere. -/
theorem step_onLine (onLine : p.OnLine c) : Step.All p.OnLine (p.step c) := by
  rcases p.step_cases c with ⟨i, m, rfl, step⟩ | ⟨i, s, rest, m, f, rfl, -, step⟩ |
    ⟨i, s, rest, m, a, rfl, decides, step⟩
  · rw [step]
    exact p.enter_onLine _ _
  · rw [step]
    exact fun _ same => nomatch same
  · have meets := s.action_meets p m.env
    rw [decides] at meets
    rw [step]
    exact goOn_onLine onLine meets

/-- What every step keeps holds wherever a run comes. -/
theorem runFrom_all {P : Config → Prop} (keeps : ∀ c, P c → Step.All P (p.step c)) {n : Nat}
    {s : Step} (start : Step.All P s) (reached : p.runFrom n s = .running c) : P c := by
  induction n generalizing s with
  | zero =>
    cases s with
    | next c' =>
      cases reached
      exact start c rfl
    | done m => cases reached
    | failed f m => cases reached
  | succ n ih =>
    cases s with
    | next c' => exact ih (keeps c' (start c' rfl)) reached
    | done m => cases reached
    | failed f m => cases reached

theorem run_onLine {n : Nat} {m : Machine} (reached : p.run n m = .running c) : p.OnLine c :=
  runFrom_all (fun _ => step_onLine) (p.enter_onLine _ _) reached

/-! ## Failing runs -/

variable {f : Fault} {m m' : Machine}

theorem enter_ne_failed (i : Nat) : p.enter i m ≠ .failed f m' := by
  unfold enter
  cases p.line? i with
  | none => exact fun same => nomatch same
  | some l => exact fun same => nomatch same

/-- Only a statement fails; the machine is then left as it was. -/
theorem action_of_step_failed (fails : p.step c = .failed f m) :
    ∃ s rest, c.rest = s :: rest ∧ s.action p c.machine.env = .error f ∧ m = c.machine := by
  rcases p.step_cases c with ⟨i, m', rfl, step⟩ | ⟨i, s, rest, m', f', rfl, decides, step⟩ |
    ⟨i, s, rest, m', a, rfl, -, step⟩
  · exact absurd (step.symm.trans fails) (enter_ne_failed _)
  · cases step.symm.trans fails
    exact ⟨s, rest, rfl, decides, rfl⟩
  · rw [step] at fails
    cases a with
    | leave l => exact absurd fails (enter_ne_failed _)
    | _ => cases fails

/-- What fails on a line is one of its nodes. -/
theorem step_fault_pos (onLine : p.OnLine c) (fails : p.step c = .failed f m) :
    ∃ l, p.line? c.index = some l ∧ f.pos ∈ l.positions := by
  obtain ⟨s, rest, next, fails, -⟩ := action_of_step_failed fails
  obtain ⟨l, found, sub⟩ := onLine.line
  rw [next] at sub
  have meets := s.action_meets p c.machine.env
  rw [fails] at meets
  exact ⟨l, found, List.mem_flatMap.2 ⟨s, sub List.mem_cons_self, meets⟩⟩

/-- A run that fails does so in a step from where a shorter run comes. -/
theorem runFrom_failed {n : Nat} {s : Step} (start : s ≠ .failed f m)
    (fails : p.runFrom n s = .failed f m) :
    ∃ k < n, ∃ c, p.runFrom k s = .running c ∧ p.step c = .failed f m := by
  induction n generalizing s with
  | zero =>
    cases s with
    | failed f' m' => exact absurd (by cases fails; rfl) start
    | _ => cases fails
  | succ n ih =>
    cases s with
    | failed f' m' => exact absurd (by cases fails; rfl) start
    | done m' => cases fails
    | next c =>
      by_cases here : p.step c = .failed f m
      · exact ⟨0, Nat.succ_pos n, c, rfl, here⟩
      · obtain ⟨k, less, c', reached, step⟩ := ih here fails
        exact ⟨k + 1, Nat.succ_lt_succ less, c', reached, step⟩

theorem run_failed {n : Nat} (fails : p.run n m = .failed f m') :
    ∃ k < n, ∃ c, p.run k m = .running c ∧ p.step c = .failed f m' :=
  runFrom_failed (enter_ne_failed _) fails

end Program

end GotoBasic
