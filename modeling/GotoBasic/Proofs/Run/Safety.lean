import GotoBasic.Proofs.Program.Loaded
import GotoBasic.Proofs.Run.TrapFree

/-!
# Safe runs

The program of a text stays on its lines, jumps only to labels that it has, fails only at nodes of
the line that it runs, and uses no partial operation outside its domain.  That a text has been read
is needed for the last point only: a number in it is short enough to be read, and so it is short
enough to be written.
-/

namespace GotoBasic

/-! ## Programs that were read -/

/-- The number of a jump that a text can have is short enough to be written. -/
theorem Stmt.Expressible.writable {s : Stmt} (expressible : s.Expressible) : s.Writable := by
  cases s with
  | goto pos target =>
    obtain ⟨l, rfl, named⟩ := expressible
    cases l with
    | num n => exact named.2
    | name s => trivial
  | _ => trivial

theorem Program.writable_of_load {source : String} {p : Program} (loads : load source = .ok p) :
    p.Writable := fun _ mem _ part => (expressible_of_load loads mem part).writable

/-! ## Runs -/

namespace Program

/-- A run that never leaves the program and never fails but in the ways of the language. -/
structure RunsSafely (p : Program) (m : Machine) : Prop where
  /-- The number of the current line is the number of a line. -/
  index : ∀ n c, p.run n m = .running c → 1 ≤ c.index ∧ c.index ≤ p.lines.length
  /-- A statement that leaves its line sets the instruction pointer to a label of the program,
  which stands for a line or for the place behind the last one. -/
  ip : ∀ n c, p.run n m = .running c → ∀ s rest l m', c.rest = s :: rest →
    s.step p c.machine rest = .ok (.jump l m') →
      m'.ip = some l ∧ ∃ i, p.position? l = some i ∧ 1 ≤ i ∧ i ≤ p.lines.length + 1
  /-- A run that fails has come to a line that cannot go on, at one of the nodes of the line. -/
  fault : ∀ n f m', p.run n m = .failed f m' → ∃ k < n, ∃ c, p.run k m = .running c ∧
    p.step c = .failed f m' ∧ ∃ l, p.line? c.index = some l ∧ f.pos ∈ l.positions
  /-- No partial operation is asked for what it does not have. -/
  trapFree : ∀ n, Checked.run p n m = .ok (p.run n m)

/-- A statement that leaves its line has decided to leave it for a label. -/
theorem action_of_step_jump {p : Program} {m m' : Machine} {s : Stmt} {rest : List Stmt}
    {l : Label} (jumps : s.step p m rest = .ok (.jump l m')) :
    s.action p m.env = .ok (.leave l) ∧ m' = { m with ip := some l } := by
  rw [Stmt.step_eq] at jumps
  cases decides : s.action p m.env with
  | error f =>
    rw [decides] at jumps
    cases jumps
  | ok a =>
    rw [decides] at jumps
    cases a with
    | leave l' =>
      cases jumps
      exact ⟨rfl, rfl⟩
    | _ => cases jumps

/-- The program of a text runs safely, whatever the variables and the input are. -/
theorem loaded_program_runs_safely {source : String} {p : Program} (loads : load source = .ok p)
    (m : Machine) : p.RunsSafely m where
  index n c reached := (run_onLine reached).bounds
  ip n c reached s rest l m' next jumps := by
    obtain ⟨decides, rfl⟩ := action_of_step_jump jumps
    have meets := s.action_meets p c.machine.env
    rw [decides] at meets
    obtain ⟨i, found⟩ := meets
    exact ⟨rfl, i, found, position?_le found⟩
  fault n f m' fails := by
    obtain ⟨k, less, c, reached, step⟩ := run_failed fails
    exact ⟨k, less, c, reached, step, step_fault_pos (run_onLine reached) step⟩
  trapFree n := Checked.run_eq (writable_of_load loads) n m

/-- A jump through a variable that holds a padded number, to a line that divides by zero. -/
theorem computed_jump_runs_safely :
    ∃ p m, load "10 GOTO t\n30 PRINT 7 / x" = .ok p ∧
      m.env = [("t", .string " 030 "), ("x", .float (.finite true 0))] ∧ p.RunsSafely m ∧
      (p.run 2 m).fault? = some ⟨.divisionByZero, ⟨2, 10⟩⟩ := by
  have loads (source : String) (p : Program) (accepted : (load source).toOption = some p) :
      load source = .ok p := by
    cases result : load source with
    | error e =>
      rw [result] at accepted
      cases accepted
    | ok q =>
      rw [result] at accepted
      cases accepted
      rfl
  have accepted := loads "10 GOTO t\n30 PRINT 7 / x"
    ⟨[⟨⟨1, 1⟩, some (.num 10), [.goto ⟨1, 4⟩ (some (.name "t"))]⟩,
      ⟨⟨2, 1⟩, some (.num 30), [.print ⟨2, 4⟩ (.binary ⟨2, 10⟩ (.arith .div)
        (.int ⟨2, 10⟩ 7) (.var ⟨2, 14⟩ "x"))]⟩]⟩ (by decide +kernel)
  exact ⟨_, ⟨_, [], none, []⟩, accepted, rfl, loaded_program_runs_safely accepted _,
    by decide +kernel⟩

end Program

end GotoBasic
