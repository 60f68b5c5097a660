import GotoBasic.Proofs.Run.ControlFlow
import GotoBasic.Proofs.Run.Effect

/-!
# Programs without jumps

A program with no jump and no exit runs straight through: it does what its statements do one after
the other, from the first line with a label to the end of the text (`Program.script`), and on its
way it starts each of these lines once, in textual order (`Program.run_straight_through`).

The statements by themselves are run by `Program.runStmts`.  A run of the program has before it
what is left of its line and then the later lines (`Program.Abreast`); it may only be behind by the
change from one line to the next (`Program.Abreast.catches_up`).  Which lines it has started is an
invariant of its own (`Program.Through`).
-/

namespace GotoBasic

/-! ## Statements that stay on their line -/

/-- The statement is a jump or an exit. -/
def Stmt.isJump : Stmt → Bool
  | .goto _ _ | .exit _ => true
  | _ => false

/-- No statement of the program, also within another statement, is a jump or an exit. -/
def Program.JumpFree (p : Program) : Prop := ∀ l ∈ p.lines, ∀ s ∈ l.parts, s.isJump = false

instance (p : Program) : Decidable p.JumpFree :=
  inferInstanceAs (Decidable (∀ l ∈ p.lines, ∀ s ∈ l.parts, s.isJump = false))

theorem Stmt.stays_of_action {p : Program} {env : Env} {s : Stmt} {a : Action}
    (jumpFree : s.isJump = false) (decides : s.action p env = .ok a) : a.Stays := by
  intro l leaves
  rw [leaves] at decides
  rcases Stmt.of_action_leave decides with ⟨pos, target, rfl, -⟩ | ⟨pos, rfl, -⟩
  · cases jumpFree
  · cases jumpFree

/-! ## Machines up to the starts of lines -/

namespace Machine

/-- What happened but for the starts of lines, the earliest first. -/
def deeds (m : Machine) : List Event := m.events.filter fun e => e.started?.isNone

/-- Machines that differ at most in the lines that were started. -/
structure SameDeeds (m m' : Machine) : Prop where
  env : m'.env = m.env
  input : m'.input = m.input
  deeds : m'.deeds = m.deeds

theorem deeds_record (m : Machine) (e : Event) :
    (m.record e).deeds = m.deeds ++ if e.started?.isNone then [e] else [] := by
  unfold deeds events record
  rw [List.reverse_cons, List.filter_append, List.filter_singleton]
  cases e.started?.isNone <;> rfl

namespace SameDeeds

variable {m m' : Machine}

theorem refl (m : Machine) : m.SameDeeds m := ⟨rfl, rfl, rfl⟩

theorem record (same : m.SameDeeds m') (e : Event) : (m.record e).SameDeeds (m'.record e) := by
  refine ⟨same.env, same.input, ?_⟩
  rw [deeds_record, deeds_record, same.deeds]

/-- The start of a line is no deed. -/
theorem startLine (same : m.SameDeeds m') (i : Nat) (label : Option Label) :
    ({ m with ip := none }.record (.lineStarted i label)).SameDeeds m' := by
  refine ⟨same.env, same.input, ?_⟩
  rw [deeds_record]
  exact same.deeds.trans (List.append_nil _).symm

theorem carries : Machine.Carries Machine.SameDeeds where
  input := SameDeeds.input
  set same x v := ⟨congrArg (Env.set · x v) same.env, same.input, same.deeds⟩
  take same := ⟨same.env, congrArg List.tail same.input, same.deeds⟩
  record same _ _ := same.record _

end SameDeeds

end Machine

/-- The machine at the end of a line, or where the steps ran out. -/
def LineOutcome.machine : LineOutcome → Machine
  | .ended _ m => m
  | .failed _ m => m
  | .running _ m => m

/-- A run of a program and one of statements that have come equally far, without a jump. -/
inductive Outcome.Abreast : Outcome → LineOutcome → Prop
  | running {c : Config} {rest : List Stmt} {m : Machine} (same : c.machine.SameDeeds m) :
    Abreast (.running c) (.running rest m)
  | done {m m' : Machine} (same : m.SameDeeds m') : Abreast (.done m) (.ended false m')
  | failed {f : Fault} {m m' : Machine} (same : m.SameDeeds m') :
    Abreast (.failed f m) (.failed f m')

/-! ## A run and its statements -/

namespace Program

/-- The statements of the lines after line `i`, one after the other. -/
def stmtsAfter (p : Program) (i : Nat) : List Stmt := (p.lines.drop i).flatMap Line.stmts

/-- The statements of the lines from the first one with a label on, or of all lines if none has
one. -/
def script (p : Program) : List Stmt := p.stmtsAfter (p.firstLabelled - 1)

/-- The run has come as far as statements of which `rest` are still to be run. -/
inductive Abreast (p : Program) : Step → List Stmt → Machine → Prop
  | next {c : Config} {rest : List Stmt} {m : Machine}
    (stmts : c.rest ++ p.stmtsAfter c.index = rest) (same : c.machine.SameDeeds m)
    (onLine : p.OnLine c) : Abreast p (.next c) rest m
  | done {m m' : Machine} (same : m.SameDeeds m') : Abreast p (.done m) [] m'

variable {p : Program}

theorem stmtsAfter_of_line? {i : Nat} {l : Line} (found : p.line? (i + 1) = some l) :
    p.stmtsAfter i = l.stmts ++ p.stmtsAfter (i + 1) := by
  have there := (line?_eq_some_iff.1 found).2
  rw [Nat.add_sub_cancel] at there
  rcases List.getElem?_eq_some_iff.1 there with ⟨below, rfl⟩
  unfold stmtsAfter
  rw [List.drop_eq_getElem_cons below, List.flatMap_cons]

theorem stmtsAfter_eq_nil {i : Nat} (none : p.line? (i + 1) = none) : p.stmtsAfter i = [] := by
  unfold stmtsAfter
  rw [List.drop_eq_nil_of_le (line?_eq_none_iff.1 none), List.flatMap_nil]

/-- The change to the next line does nothing, but its statements are next. -/
theorem enter_abreast (i : Nat) {m m' : Machine} (same : m.SameDeeds m') :
    p.Abreast (p.enter (i + 1) m) (p.stmtsAfter i) m' := by
  have onLine := p.enter_onLine (i + 1) m
  unfold enter at onLine ⊢
  cases found : p.line? (i + 1) with
  | none =>
    rw [stmtsAfter_eq_nil found]
    exact .done same
  | some l =>
    rw [found] at onLine
    exact .next (stmtsAfter_of_line? found).symm (same.startLine _ _) (onLine _ rfl)

theorem index_of_enter {i : Nat} {m : Machine} {c : Config} (entered : p.enter i m = .next c) :
    c.index = i := by
  unfold enter at entered
  cases found : p.line? i with
  | none =>
    rw [found] at entered
    cases entered
  | some l =>
    rw [found] at entered
    cases entered
    rfl

section Statement

variable {i : Nat} {s : Stmt} {rest : List Stmt} {m : Machine} {a : Action}

theorem isJump_of_onLine (jumpFree : p.JumpFree) (onLine : p.OnLine ⟨i, s :: rest, m⟩) :
    s.isJump = false := by
  rcases onLine.exists_mem_parts rfl with ⟨l, mem, part⟩
  exact jumpFree l mem s part

theorem runStmts_of_stays (decides : s.action p m.env = .ok a) (stays : a.Stays) (n : Nat) :
    p.runStmts (n + 1) (s :: rest) m = p.runStmts n (a.front ++ rest) (a.effect m) := by
  have next : s.step p m rest = .ok (.next (a.front ++ rest) (a.effect m)) := by
    rw [Stmt.step_eq, decides, ← Action.perform_of_stays stays]
    rfl
  rw [runStmts, next]

theorem runStmts_of_fault {f : Fault} (fails : s.action p m.env = .error f) (n : Nat) :
    p.runStmts (n + 1) (s :: rest) m = .failed f m := by
  rw [runStmts, Stmt.step_eq, fails]
  rfl

end Statement

namespace Abreast

/-- A run that has come as far as some statements goes on with the first of them, or ends if there
is none, as soon as it has changed lines often enough. -/
inductive Ready (p : Program) : Outcome → List Stmt → Machine → Prop
  | next {i : Nat} {s : Stmt} {rest : List Stmt} {m m' : Machine} (same : m.SameDeeds m')
    (onLine : p.OnLine ⟨i, s :: rest, m⟩) :
    Ready p (.running ⟨i, s :: rest, m⟩) (s :: (rest ++ p.stmtsAfter i)) m'
  | done {m m' : Machine} (same : m.SameDeeds m') : Ready p (.done m) [] m'

theorem catches_up {s : Step} {rest : List Stmt} {m : Machine} (abreast : p.Abreast s rest m) :
    ∃ n, Ready p (p.runFrom n s) rest m := by
  cases abreast with
  | done same => exact ⟨0, .done same⟩
  | @next c _ _ stmts same onLine =>
    -- Every line that has nothing left brings the run closer to the end of the text.
    induction left : p.lines.length - c.index using Nat.strongRecOn generalizing c with
    | ind d ih =>
      rcases c with ⟨i, rest', m'⟩
      cases rest' with
      | cons s rest' =>
        subst stmts
        exact ⟨0, .next same onLine⟩
      | nil =>
        have entered := p.enter_abreast i same
        rw [show p.stmtsAfter i = rest from stmts] at entered
        generalize entry : p.enter (i + 1) m' = s at entered
        cases entered with
        | done same => exact ⟨1, by rw [runFrom, step_nil, entry]; exact .done same⟩
        | @next c _ _ stmts same onLine' =>
          have index := index_of_enter entry
          have less : p.lines.length - c.index < d := by
            have bound := onLine'.bounds.2
            dsimp only at left
            omega
          rcases ih _ less onLine' stmts same rfl with ⟨n, ready⟩
          exact ⟨n + 1, by rw [runFrom, step_nil, entry]; exact ready⟩

/-- A statement does the same in a run of the program and by itself. -/
theorem step (jumpFree : p.JumpFree) {i : Nat} {s : Stmt} {rest : List Stmt} {m m' : Machine}
    (same : m.SameDeeds m') (onLine : p.OnLine ⟨i, s :: rest, m⟩) :
    (∃ f, p.step ⟨i, s :: rest, m⟩ = .failed f m ∧
      ∀ k, p.runStmts (k + 1) (s :: (rest ++ p.stmtsAfter i)) m' = .failed f m') ∨
    ∃ rest₁ m₁, p.Abreast (p.step ⟨i, s :: rest, m⟩) rest₁ m₁ ∧
      ∀ k, p.runStmts (k + 1) (s :: (rest ++ p.stmtsAfter i)) m' = p.runStmts k rest₁ m₁ := by
  have next := step_onLine onLine
  cases decides : s.action p m.env with
  | error f =>
    have decides' : s.action p m'.env = .error f := by rw [same.env, decides]
    exact .inl ⟨f, step_of_fault decides, fun k => runStmts_of_fault decides' k⟩
  | ok a =>
    have decides' : s.action p m'.env = .ok a := by rw [same.env, decides]
    have stays := Stmt.stays_of_action (isJump_of_onLine jumpFree onLine) decides
    rw [step_of_stays decides stays] at next ⊢
    have alike := Machine.SameDeeds.carries.effect same a
    have stmts := List.append_assoc a.front rest (p.stmtsAfter i)
    exact .inr ⟨_, _, .next stmts alike (next _ rfl), runStmts_of_stays decides' stays⟩

/-- What a run of the program does in `n` steps, its statements do by themselves. -/
theorem forward (jumpFree : p.JumpFree) (n : Nat) {s : Step} {rest : List Stmt} {m : Machine}
    (abreast : p.Abreast s rest m) :
    ∃ k, (p.runFrom n s).machine.SameDeeds (p.runStmts k rest m).machine ∧
      ((p.runFrom n s).ending ≠ .running →
        Outcome.Abreast (p.runFrom n s) (p.runStmts k rest m)) := by
  induction n generalizing s rest m with
  | zero =>
    cases abreast with
    | done same => exact ⟨0, same, fun _ => .done same⟩
    | next stmts same onLine =>
      refine ⟨0, ?_, fun ended => absurd rfl ended⟩
      cases rest with
      | nil => exact same
      | cons s rest => exact same
  | succ n ih =>
    cases abreast with
    | done same => exact ⟨0, same, fun _ => .done same⟩
    | @next c _ _ stmts same onLine =>
      rcases c with ⟨i, rest', m'⟩
      subst stmts
      cases rest' with
      | nil => exact ih (p.enter_abreast i same)
      | cons s rest' =>
        rcases step jumpFree same onLine with ⟨f, fails, alone⟩ | ⟨rest₁, m₁, next, alone⟩
        · have failed : p.runFrom (n + 1) (.next ⟨i, s :: rest', m'⟩) = .failed f m' := by
            rw [runFrom, fails]
            cases n <;> rfl
          have alone := alone 0
          refine ⟨1, ?_⟩
          rw [failed]
          dsimp only [List.cons_append]
          rw [alone]
          exact ⟨same, fun _ => .failed same⟩
        · rcases ih next with ⟨k, alike⟩
          refine ⟨k + 1, ?_⟩
          dsimp only [List.cons_append]
          rw [alone k]
          exact alike

/-- What the statements do by themselves in `k` steps, a run of the program does. -/
theorem backward (jumpFree : p.JumpFree) (k : Nat) {s : Step} {rest : List Stmt} {m : Machine}
    (abreast : p.Abreast s rest m) :
    ∃ n, Outcome.Abreast (p.runFrom n s) (p.runStmts k rest m) := by
  induction k generalizing s rest m with
  | zero =>
    rcases abreast.catches_up with ⟨n, ready⟩
    refine ⟨n, ?_⟩
    generalize p.runFrom n s = o at ready
    cases ready with
    | done same => exact .done same
    | next same onLine => exact .running same
  | succ k ih =>
    rcases abreast.catches_up with ⟨n, ready⟩
    generalize reached : p.runFrom n s = o at ready
    cases ready with
    | done same =>
      refine ⟨n, ?_⟩
      rw [reached]
      exact .done same
    | @next i s' rest m₀ _ same onLine =>
      have goesOn (j : Nat) : p.runFrom (n + (j + 1)) s =
          p.runFrom j (p.step ⟨i, s' :: rest, m₀⟩) := by
        rw [runFrom_add, reached]
        rfl
      rcases step jumpFree same onLine with ⟨f, fails, alone⟩ | ⟨rest₁, m₁, next, alone⟩
      · refine ⟨n + 1, ?_⟩
        rw [goesOn 0, fails, alone]
        exact .failed same
      · rcases ih next with ⟨j, alike⟩
        refine ⟨n + (j + 1), ?_⟩
        rw [goesOn j, alone]
        exact alike

end Abreast

/-! ## The lines that are started -/

/-- On the way from `m` to `m'` the lines from the first one with a label to line `i` were started,
each once and in this order, and no others. -/
structure Passed (p : Program) (m m' : Machine) (i : Nat) : Prop where
  started : m'.started = m.started ++ List.range' p.firstLabelled (i + 1 - p.firstLabelled)
  ip : p.firstLabelled ≤ i → m'.ip = none

/-- A step of a run from `m` that has passed all lines up to the one where it is. -/
def Through (p : Program) (m : Machine) : Step → Prop
  | .next c => p.OnLine c ∧ p.firstLabelled ≤ c.index ∧ p.Passed m c.machine c.index
  | .done m' => p.Passed m m' p.lines.length
  | .failed f m' => ∃ i l, p.line? i = some l ∧ f.pos ∈ l.positions ∧ p.firstLabelled ≤ i ∧
      p.Passed m m' i

/-- Line `i` is where the run is, or has failed, or the last line if the run is at its end. -/
def StopsAt (p : Program) (i : Nat) : Outcome → Prop
  | .running c => c.index = i
  | .done _ => i = p.lines.length
  | .failed f _ => ∃ l, p.line? i = some l ∧ f.pos ∈ l.positions

/-- All lines before line `i + 1` have been passed, and it is the next. -/
theorem enter_through {m m' : Machine} {i : Nat} (passed : p.Passed m m' i)
    (first : p.firstLabelled ≤ i + 1) (inside : i ≤ p.lines.length) :
    p.Through m (p.enter (i + 1) m') := by
  have onLine := p.enter_onLine (i + 1) m'
  unfold enter at onLine ⊢
  cases found : p.line? (i + 1) with
  | none =>
    have last : i = p.lines.length := Nat.le_antisymm inside (line?_eq_none_iff.1 found)
    rw [last] at passed
    exact passed
  | some l =>
    rw [found] at onLine
    refine ⟨onLine _ rfl, first, ?_, fun _ => rfl⟩
    have more : i + 1 + 1 - p.firstLabelled = i + 1 - p.firstLabelled + 1 := by omega
    have here : p.firstLabelled + (i + 1 - p.firstLabelled) = i + 1 := by omega
    rw [Machine.started_record, more, List.range'_concat, Nat.one_mul, here,
      ← List.append_assoc, ← passed.started]
    rfl

theorem step_through (jumpFree : p.JumpFree) {m : Machine} {c : Config}
    (through : p.Through m (.next c)) : p.Through m (p.step c) := by
  rcases through with ⟨onLine, first, passed⟩
  have next := step_onLine onLine
  rcases p.step_cases c with ⟨i, m', rfl, step⟩ | ⟨i, s, rest, m', f, rfl, -, step⟩ |
    ⟨i, s, rest, m', a, rfl, decides, -⟩
  · rw [step]
    exact enter_through passed (Nat.le_succ_of_le first) onLine.bounds.2
  · rcases step_fault_pos onLine step with ⟨l, found, node⟩
    rw [step]
    exact ⟨i, l, found, node, first, passed⟩
  · have stays := Stmt.stays_of_action (isJump_of_onLine jumpFree onLine) decides
    rw [step_of_stays decides stays] at next ⊢
    have started := (a.started_effect m').trans passed.started
    exact ⟨next _ rfl, first, started, fun reached => (a.ip_effect m').trans (passed.ip reached)⟩

theorem runFrom_through (jumpFree : p.JumpFree) {m : Machine} (n : Nat) {s : Step}
    (through : p.Through m s) :
    ∃ i, p.StopsAt i (p.runFrom n s) ∧ p.Passed m (p.runFrom n s).machine i ∧
      (p.lines ≠ [] → p.firstLabelled ≤ i ∧ i ≤ p.lines.length) := by
  fun_induction p.runFrom n s with
  | case1 n m' =>
    refine ⟨p.lines.length, rfl, through, fun nonempty => ?_⟩
    rcases exists_line_of_firstLabelled nonempty with ⟨l, found⟩
    exact ⟨(le_length_of_line? found).2, Nat.le_refl _⟩
  | case2 n f m' =>
    rcases through with ⟨i, l, found, node, first, passed⟩
    exact ⟨i, ⟨l, found, node⟩, passed, fun _ => ⟨first, (le_length_of_line? found).2⟩⟩
  | case3 c =>
    rcases through with ⟨onLine, first, passed⟩
    exact ⟨c.index, rfl, passed, fun _ => ⟨first, onLine.bounds.2⟩⟩
  | case4 n c ih => exact ih (step_through jumpFree through)

theorem firstLabelled_bounds (p : Program) :
    1 ≤ p.firstLabelled ∧ p.firstLabelled ≤ p.lines.length + 1 := by
  by_cases empty : p.lines = []
  · have first : p.firstLabelled = 1 := by
      unfold firstLabelled
      rw [empty]
      rfl
    omega
  · rcases exists_line_of_firstLabelled empty with ⟨l, found⟩
    have bounds := le_length_of_line? found
    omega

/-- A loaded program without jumps does what the statements from its first line with a label on do
one after the other, and stops where they do, be it at the end or at the first fault.  It starts
the lines from the first one with a label up to the one where it stops, each once and in textual
order, and no others; once one was started, the instruction pointer is not set. -/
theorem run_straight_through {source : String} (loads : load source = .ok p)
    (jumpFree : p.JumpFree) (m : Machine) :
    (∀ n, ∃ k, (p.run n m).machine.SameDeeds (p.runStmts k p.script m).machine ∧
      ((p.run n m).ending ≠ .running →
        Outcome.Abreast (p.run n m) (p.runStmts k p.script m))) ∧
    (∀ k, ∃ n, Outcome.Abreast (p.run n m) (p.runStmts k p.script m)) ∧
    ∀ n, ∃ i, p.StopsAt i (p.run n m) ∧ p.Passed m (p.run n m).machine i ∧
      (p.lines ≠ [] → p.firstLabelled ≤ i ∧ i ≤ p.lines.length) := by
  have bounds := p.firstLabelled_bounds
  have first : p.firstLabelled - 1 + 1 = p.firstLabelled := Nat.sub_add_cancel bounds.1
  have entry : p.entryIndex = p.firstLabelled - 1 + 1 := by
    rw [first]
    exact entryIndex_eq_firstLabelled fun _ mem => label_ne_exit_of_load loads mem
  unfold run
  rw [entry]
  have abreast := p.enter_abreast (p.firstLabelled - 1) (.refl m)
  have none : p.Passed m m (p.firstLabelled - 1) := by
    refine ⟨?_, fun reached => by omega⟩
    rw [first, Nat.sub_self]
    exact (List.append_nil _).symm
  have through := enter_through none (by omega) (by omega)
  exact ⟨fun n => abreast.forward jumpFree n, fun k => abreast.backward jumpFree k,
    fun n => runFrom_through jumpFree n through⟩

/-- A line without a label before the entry, a loop within a line, and a fault before the end. -/
theorem run_straight_through_loop :
    ∃ p m, load "PRINT 0\n10 WHILE n < 2 THEN LET n = n + 1\nPRINT n \\ PRINT x\nPRINT 1" = .ok p ∧
      p.JumpFree ∧ m.env = [("n", .int 0)] ∧ p.firstLabelled = 2 ∧ p.script.length = 4 ∧
      (p.run 20 m).ending = .failed ⟨.undefinedVariable "x", ⟨3, 17⟩⟩ ∧
      (p.run 20 m).machine.started = [2, 3] ∧
      (∃ k, Outcome.Abreast (p.run 20 m) (p.runStmts k p.script m)) ∧
      ∃ i, p.StopsAt i (p.run 20 m) ∧ p.Passed m (p.run 20 m).machine i := by
  let m : Machine := ⟨[("n", .int 0)], [], none, []⟩
  rcases exists_load
    (P := fun p => p.JumpFree ∧ p.firstLabelled = 2 ∧ p.script.length = 4 ∧
      (p.run 20 m).ending = .failed ⟨.undefinedVariable "x", ⟨3, 17⟩⟩ ∧
      (p.run 20 m).machine.started = [2, 3])
    "PRINT 0\n10 WHILE n < 2 THEN LET n = n + 1\nPRINT n \\ PRINT x\nPRINT 1"
    (by decide +kernel) with ⟨p, loads, jumpFree, first, length, fails, lines⟩
  rcases run_straight_through loads jumpFree m with ⟨forward, -, through⟩
  rcases forward 20 with ⟨k, -, alike⟩
  rcases through 20 with ⟨i, stops, passed, -⟩
  have ended : (p.run 20 m).ending ≠ .running := by
    rw [fails]
    exact fun same => nomatch same
  exact ⟨p, m, loads, jumpFree, rfl, first, length, fails, lines, ⟨k, alike ended⟩,
    i, stops, passed⟩

end Program

end GotoBasic
