import GotoBasic.Proofs.Program.Insertion
import GotoBasic.Proofs.Program.Loaded
import GotoBasic.Proofs.Run.OnLine
import GotoBasic.Proofs.Run.Simulation
import Mathlib.Data.List.Nodup

/-!
# Loops by jumps

A loop that is alone on a line with a label may be written with jumps: the line tests the condition,
runs the body and jumps back to its own label, and a second line stands for the place behind the
loop.  If the program with the loop runs to its end, then so does the one with the jumps, and the
same can be seen of both (`Program.loop_by_jumps`).  Runs that fail may differ: a condition that is
no truth value is then a fault of another statement, and a variable may hold the new label.
-/

namespace GotoBasic

/-- A loop that is alone on a line with a label, and the label and the places that it takes to write
it with jumps. -/
structure Loop where
  label : Label
  cond : Expr
  body : Stmt
  /-- The name of the place behind the loop. -/
  finish : String
  linePos : Pos
  loopPos : Pos
  testPos : Pos
  skipPos : Pos
  outPos : Pos
  backPos : Pos
  finishPos : Pos
  restPos : Pos

namespace Loop

variable (loop : Loop)

/-- The loop as one statement. -/
def stmt : Stmt := .whileThen loop.loopPos loop.cond loop.body

/-- The jump to the place behind the loop. -/
def out : Stmt := .goto loop.outPos (some (.name loop.finish))

/-- The test that goes on with the line or leaves it. -/
def test : Stmt := .ifElse loop.testPos loop.cond (.nop loop.skipPos) loop.out

/-- The jump to the start of the line. -/
def back : Stmt := .goto loop.backPos (some loop.label)

/-- The line with the loop. -/
def whole : Line := ⟨loop.linePos, some loop.label, [loop.stmt]⟩

/-- The line that takes its place. -/
def first : Line := ⟨loop.linePos, some loop.label, [loop.test, loop.body, loop.back]⟩

/-- The line behind it. -/
def second : Line := ⟨loop.finishPos, some (.name loop.finish), [.nop loop.restPos]⟩

end Loop

/-! ## Runs that complete -/

namespace Program

variable {p q : Program}

/-- From here on the program runs to its end. -/
def Completes (p : Program) (s : Step) : Prop := ∃ n, (p.runFrom n s).ending = .done

theorem Completes.step {c : Config} (completes : p.Completes (.next c)) :
    p.Completes (p.step c) := by
  rcases completes with ⟨n, ends⟩
  cases n with
  | zero => cases ends
  | succ n => exact ⟨n, ends⟩

theorem Completes.exists_action {i : Nat} {s : Stmt} {rest : List Stmt} {m : Machine}
    (completes : p.Completes (.next ⟨i, s :: rest, m⟩)) : ∃ a, s.action p m.env = .ok a := by
  cases decides : s.action p m.env with
  | ok a => exact ⟨a, rfl⟩
  | error f =>
    rcases completes.step with ⟨n, ends⟩
    rw [step_of_fault decides] at ends
    cases n <;> cases ends

end Program

/-! ## Decisions with more labels -/

theorem Program.declared?_mono {p q : Program}
    (more : ∀ l, (p.position? l).isSome → (q.position? l).isSome) {l l' : Label}
    (declared : p.declared? l = some l') : q.declared? l = some l' := by
  unfold declared? at declared ⊢
  split at declared
  next has =>
    rw [if_pos (more l has)]
    exact declared
  · cases declared

/-- A jump that goes somewhere goes there also if there are more labels, unless its own target is
one of them. -/
theorem Program.resolve_mono {p q : Program}
    (more : ∀ l, (p.position? l).isSome → (q.position? l).isSome) {env : Env}
    {target : Option Label} {l : Label}
    (old : ∀ t, target = some t → (q.position? t).isSome → (p.position? t).isSome)
    (resolves : p.resolve env target = .ok l) : q.resolve env target = .ok l := by
  unfold resolve at resolves ⊢
  cases declared : target.bind p.declared? with
  | some l' =>
    rw [declared] at resolves
    rcases Option.bind_eq_some_iff.1 declared with ⟨t, rfl, own⟩
    rw [Option.bind_some, declared?_mono more own]
    exact resolves
  | none =>
    have undeclared : target.bind q.declared? = none := by
      cases target with
      | none => rfl
      | some t =>
        rw [Option.bind_some] at declared ⊢
        unfold declared? at declared ⊢
        split at declared
        · cases declared
        next absent => exact if_neg fun has => absent (old t rfl has)
    rw [declared] at resolves
    rw [undeclared]
    dsimp only at resolves ⊢
    cases bound : env.get? (Label.textOf target) with
    | none =>
      rw [bound] at resolves
      cases resolves
    | some v =>
      rw [bound] at resolves
      dsimp only at resolves ⊢
      cases named : (Label.ofValue? v).bind p.declared? with
      | none =>
        rw [named] at resolves
        cases resolves
      | some l' =>
        rw [named] at resolves
        rcases Option.bind_eq_some_iff.1 named with ⟨t, held, own⟩
        rw [held, Option.bind_some, declared?_mono more own]
        exact resolves

theorem Stmt.action_mono {p q : Program}
    (more : ∀ l, (p.position? l).isSome → (q.position? l).isSome) {env : Env} {s : Stmt}
    {a : Action} (old : ∀ t, s.target? = some t → (q.position? t).isSome → (p.position? t).isSome)
    (decides : s.action p env = .ok a) : s.action q env = .ok a := by
  cases s with
  | goto pos target =>
    rcases exists_of_bind_eq_ok decides with ⟨l, located, gives⟩
    cases resolves : p.resolve env target with
    | error c =>
      rw [resolves] at located
      cases located
    | ok l' =>
      rw [resolves] at located
      cases located
      have there : q.resolve env target = .ok l := Program.resolve_mono more old resolves
      change (Cause.locate pos (q.resolve env target) >>= _) = _
      rw [there]
      exact gives
  | _ => exact decides

theorem Expr.test_eq_ok {e : Expr} {env : Env} {b : Bool} {statement : Conditional}
    (tests : e.test statement env = .ok b) (statement' : Conditional) :
    e.test statement' env = .ok b := by
  rcases exists_of_bind_eq_ok tests with ⟨v, value, truth⟩
  unfold test
  rw [value]
  cases v with
  | bool b' => exact truth
  | _ => cases truth

/-! ## Matching steps -/

namespace Program

variable {p q : Program} {i : Nat} {loop : Loop}

/-- A jump to a label leads to the first statement of its line. -/
theorem exists_step_goto {j k : Nat} {pos : Pos} {l : Label} {line : Line} {rest : List Stmt}
    {m : Machine} (position : q.position? l = some k) (found : q.line? k = some line)
    (unset : m.ip = none) :
    ∃ m', q.step ⟨j, .goto pos (some l) :: rest, m⟩ = .next ⟨k, line.stmts, m'⟩ ∧
      m.Alike m' := by
  have decides : (Stmt.goto pos (some l)).action q m.env = .ok (.leave l) := by
    have resolves := resolve_of_isSome (p := q) (l := l) (by rw [position]; rfl) m.env
    change (Cause.locate pos (q.resolve m.env (some l)) >>= _) = _
    rw [resolves]
    rfl
  refine ⟨{ { m with ip := some l }.record (.jumped l k) with ip := none }.record
    (.lineStarted k line.label), ?_, ?_⟩
  · rw [step_of_action decides]
    change q.enter ((q.position? l).getD q.exitIndex) _ = _
    rw [position, Option.getD_some, enter, found]
  · have same : m.Alike { m with ip := none } := ⟨rfl, rfl, unset, rfl, rfl⟩
    have noted (e : Event) (silent : e.written? = none) (still : e.isRead = false) :
        Machine.Alike { m with ip := none } { m.record e with ip := none } :=
      (Machine.Alike.note m silent still).symm.set_ip none
    exact (same.trans (noted _ rfl rfl)).trans (Machine.Alike.note _ rfl rfl).symm

/-- `q` is `p` with the loop of line `i` written with jumps, one of them to a new label. -/
structure LoopAt (p q : Program) (i : Nat) (loop : Loop) : Prop where
  inserts : Inserts p q i loop.whole loop.first loop.second
  start : q.position? loop.label = some i
  finish : q.position? (.name loop.finish) = some (i + 1)
  absent : p.position? (.name loop.finish) = none
  unaimed : ∀ l ∈ p.lines, ∀ s ∈ l.parts, s.target? ≠ some (.name loop.finish)

namespace LoopAt

/-- Places in the two programs that correspond.  On the line of the loop, the loop itself stands for
the test or, while its body runs, for the jump back; a loop that has ended is a jump to the line
behind, or a place on that line. -/
inductive Related (i : Nat) (loop : Loop) : Config → Config → Prop
  | outside {j : Nat} {rest : List Stmt} {m m' : Machine} (other : j ≠ i) (alike : m.Alike m') :
    Related i loop ⟨j, rest, m⟩ ⟨shiftPast i j, rest, m'⟩
  | test {m m' : Machine} (alike : m.Alike m') :
    Related i loop ⟨i, [loop.stmt], m⟩ ⟨i, [loop.test, loop.body, loop.back], m'⟩
  | entered {m m' : Machine} (alike : m.Alike m') :
    Related i loop ⟨i, [loop.body, loop.stmt], m⟩
      ⟨i, [.nop loop.skipPos, loop.body, loop.back], m'⟩
  | within {rest : List Stmt} {m m' : Machine} (alike : m.Alike m') :
    Related i loop ⟨i, rest ++ [loop.stmt], m⟩ ⟨i, rest ++ [loop.back], m'⟩
  | left {m m' : Machine} (alike : m.Alike m') :
    Related i loop ⟨i, [], m⟩ ⟨i, [loop.out, loop.body, loop.back], m'⟩
  | behind {m m' : Machine} (alike : m.Alike m') :
    Related i loop ⟨i, [], m⟩ ⟨i + 1, [.nop loop.restPos], m'⟩
  | past {m m' : Machine} (alike : m.Alike m') : Related i loop ⟨i, [], m⟩ ⟨i + 1, [], m'⟩

theorem Related.alike {c c' : Config} (related : Related i loop c c') :
    c.machine.Alike c'.machine := by
  cases related <;> assumption

/-- How many steps of its own the program with the jumps may take.  A jump at the end of a line
counts for those of the line that it starts. -/
def lag (c : Config) : Nat :=
  match c.rest with
  | [s] => if s.target?.isSome then 4 else 1
  | rest => rest.length

theorem position?_of_ne (jumps : LoopAt p q i loop) {l : Label} (other : l ≠ .name loop.finish) :
    q.position? l = (p.position? l).map (shiftPast i) :=
  jumps.inserts.position? l fun same => other (Option.some.inj same).symm

theorem isSome_position?_iff (jumps : LoopAt p q i loop) {l : Label}
    (other : l ≠ .name loop.finish) : (q.position? l).isSome ↔ (p.position? l).isSome := by
  rw [jumps.position?_of_ne other, Option.isSome_map]

theorem ne_finish_of_isSome (jumps : LoopAt p q i loop) {l : Label}
    (has : (p.position? l).isSome) : l ≠ .name loop.finish := by
  intro same
  rw [same, jumps.absent] at has
  cases has

theorem enter_matches (jumps : LoopAt p q i loop) (j : Nat) {m m' : Machine}
    (alike : m.Alike m') :
    Step.Matches (Related i loop) Machine.Alike (p.enter j m) (q.enter (shiftPast i j) m') := by
  unfold enter
  by_cases here : j = i
  · subst here
    rw [shiftPast_of_le (Nat.le_refl j), jumps.inserts.whole, jumps.inserts.part₁]
    exact .next (.test (alike.startLine _ _ _ _))
  · rw [jumps.inserts.other j here]
    cases p.line? j with
    | some l => exact .next (.outside here (alike.startLine _ _ _ _))
    | none => exact .done alike

/-- A statement of the program with the loop does the same in the one with the jumps. -/
theorem action_eq (jumps : LoopAt p q i loop) {j : Nat} {s : Stmt} {rest : List Stmt}
    {m : Machine} {a : Action} (onLine : p.OnLine ⟨j, s :: rest, m⟩)
    (decides : s.action p m.env = .ok a) : s.action q m.env = .ok a := by
  refine Stmt.action_mono (fun l has => ?_) (fun t target has => ?_) decides
  · exact (jumps.isSome_position?_iff (jumps.ne_finish_of_isSome has)).2 has
  · rcases onLine.line with ⟨l, found, sub⟩
    have part : s ∈ l.parts := sub List.mem_cons_self
    have other : t ≠ .name loop.finish := by
      intro same
      exact jumps.unaimed l (mem_lines_of_line? found) s part (by rw [target, same])
    exact (jumps.isSome_position?_iff other).1 has

theorem step_cons_matches (jumps : LoopAt p q i loop) {j j' : Nat} {s : Stmt}
    {rest rest' : List Stmt} {m m' : Machine}
    (completes : p.Completes (.next ⟨j, s :: rest, m⟩)) (onLine : p.OnLine ⟨j, s :: rest, m⟩)
    (alike : m.Alike m')
    (stays : ∀ (front : List Stmt) {m₁ m₁' : Machine}, m₁.Alike m₁' →
      Related i loop ⟨j, front ++ rest, m₁⟩ ⟨j', front ++ rest', m₁'⟩) :
    Step.Matches (Related i loop) Machine.Alike (p.step ⟨j, s :: rest, m⟩)
      (q.step ⟨j', s :: rest', m'⟩) := by
  rcases completes.exists_action with ⟨a, decides⟩
  have decides' : s.action q m'.env = .ok a := by
    rw [← alike.env]
    exact jumps.action_eq onLine decides
  refine step_matches_of_action alike decides decides' (fun front _ _ alike _ => ?_) ?_
  · exact stays front alike
  · intro l leaves m₁ m₁' alike
    subst leaves
    have fits := s.action_meets p m.env
    rw [decides] at fits
    rcases fits with ⟨k, position⟩
    have other : l ≠ .name loop.finish :=
      jumps.ne_finish_of_isSome (by rw [position]; rfl)
    exact follow_matches l jumps.enter_matches (jumps.position?_of_ne other)
      jumps.inserts.exitIndex alike

/-! ## The simulation -/

/-- Places that correspond, in a run of `p` that is going to be complete. -/
structure Ahead (p : Program) (i : Nat) (loop : Loop) (c c' : Config) : Prop where
  completes : p.Completes (.next c)
  onLine : p.OnLine c
  related : Related i loop c c'

theorem ahead_of_matches {s s' : Step} (completes : p.Completes s) (onLine : Step.All p.OnLine s)
    (matched : Step.Matches (Related i loop) Machine.Alike s s') :
    Step.Matches (Ahead p i loop) Machine.Alike s s' := by
  cases matched with
  | next related => exact .next ⟨completes, onLine _ rfl, related⟩
  | done alike => exact .done alike
  | failed alike => exact .failed alike

/-- The test takes the branch that the loop takes. -/
theorem test_matches {m m' : Machine} (completes : p.Completes (.next ⟨i, [loop.stmt], m⟩))
    (alike : m.Alike m') :
    Step.Matches (Related i loop) Machine.Alike (p.step ⟨i, [loop.stmt], m⟩)
      (q.step ⟨i, [loop.test, loop.body, loop.back], m'⟩) := by
  rcases completes.exists_action with ⟨a, decides⟩
  rcases exists_of_bind_eq_ok decides with ⟨b, tests, gives⟩
  cases gives
  have decides' : loop.test.action q m'.env =
      .ok (.pass [if b then .nop loop.skipPos else loop.out]) := by
    change (loop.cond.test .ifThen m'.env >>= _) = _
    rw [← alike.env, Expr.test_eq_ok tests .ifThen]
    rfl
  rw [step_of_action decides, step_of_action decides']
  cases b with
  | true => exact .next (.entered alike)
  | false => exact .next (.left alike)

/-- The program with the jumps does what the one with the loop does.  Its own steps pass over the
statements that do nothing, and jump back to the test or behind the loop. -/
theorem simulation (jumps : LoopAt p q i loop) :
    Simulation (Ahead p i loop) Machine.Alike p q lag := by
  refine ⟨fun {c c'} ahead => ?_⟩
  rcases ahead with ⟨completes, onLine, related⟩
  have lifted (matched : Step.Matches (Related i loop) Machine.Alike (p.step c) (q.step c')) :
      Step.Matches (Ahead p i loop) Machine.Alike (p.step c) (q.step c') :=
    ahead_of_matches completes.step (step_onLine onLine) matched
  have unset : c'.machine.ip = none := related.alike.ip.symm.trans onLine.ip
  cases related with
  | @outside j rest m m' other alike =>
    refine .inl (lifted ?_)
    cases rest with
    | nil =>
      rw [step_nil, step_nil, ← shiftPast_succ other]
      exact jumps.enter_matches (j + 1) alike
    | cons s rest =>
      exact jumps.step_cons_matches completes onLine alike fun _ _ _ alike => .outside other alike
  | test alike => exact .inl (lifted (test_matches completes alike))
  | @entered m m' alike =>
    have within : Related i loop ⟨i, [loop.body] ++ [loop.stmt], m⟩
        ⟨i, [loop.body] ++ [loop.back], m'⟩ := .within alike
    exact .inr ⟨_, rfl, ⟨completes, onLine, within⟩, Nat.lt_succ_self 2⟩
  | @within rest m m' alike =>
    cases rest with
    | nil =>
      -- The body is done, and the loop is about to test: the jump back starts its line anew.
      rcases exists_step_goto jumps.start jumps.inserts.part₁ unset with ⟨m'', jumped, kept⟩
      exact .inr ⟨_, jumped, ⟨completes, onLine, .test (alike.trans kept)⟩, Nat.lt_succ_self 3⟩
    | cons s rest =>
      refine .inl (lifted (jumps.step_cons_matches completes onLine alike ?_))
      intro front m₁ m₁' alike
      change Related i loop ⟨i, front ++ (rest ++ _), m₁⟩ ⟨i, front ++ (rest ++ _), m₁'⟩
      rw [← List.append_assoc, ← List.append_assoc]
      exact .within alike
  | left alike =>
    rcases exists_step_goto jumps.finish jumps.inserts.part₂ unset with ⟨m'', jumped, kept⟩
    have shorter : 1 < 3 := by decide
    exact .inr ⟨_, jumped, ⟨completes, onLine, .behind (alike.trans kept)⟩, shorter⟩
  | @behind m m' alike =>
    exact .inr ⟨_, rfl, ⟨completes, onLine, .past alike⟩, Nat.one_pos⟩
  | past alike =>
    refine .inl (lifted ?_)
    rw [step_nil, step_nil, ← shiftPast_of_lt (Nat.lt_succ_self i)]
    exact jumps.enter_matches (i + 1) alike

end LoopAt

/-! ## Programs with loops -/

section Lines

variable {before after : List Line}

theorem nodup_labels_by_jumps
    (distinct : ((before ++ loop.whole :: after).filterMap Line.label).Nodup)
    (fresh : ∀ l ∈ before ++ loop.whole :: after, l.label ≠ some (.name loop.finish)) :
    ((before ++ loop.first :: loop.second :: after).filterMap Line.label).Nodup := by
  have labels : (before ++ loop.first :: loop.second :: after).filterMap Line.label =
      (before ++ [loop.whole]).filterMap Line.label ++
        .name loop.finish :: after.filterMap Line.label := by
    simp [List.filterMap_append, Loop.first, Loop.second, Loop.whole]
  have old : (before ++ [loop.whole]).filterMap Line.label ++ after.filterMap Line.label =
      (before ++ loop.whole :: after).filterMap Line.label := by
    rw [← List.filterMap_append, List.append_assoc]
    rfl
  rw [labels, List.nodup_middle, old, List.nodup_cons]
  refine ⟨fun mem => ?_, distinct⟩
  rcases List.mem_filterMap.1 mem with ⟨l, mem, label⟩
  exact fresh l mem label

theorem loopAt_of_lines
    (distinct : ((before ++ loop.whole :: after).filterMap Line.label).Nodup)
    (unreserved : loop.label ≠ Label.exit)
    (fresh : ∀ l ∈ before ++ loop.whole :: after, l.label ≠ some (.name loop.finish))
    (unaimed : ∀ l ∈ before ++ loop.whole :: after, ∀ s ∈ l.parts,
      s.target? ≠ some (.name loop.finish)) :
    LoopAt ⟨before ++ loop.whole :: after⟩ ⟨before ++ loop.first :: loop.second :: after⟩
      (before.length + 1) loop := by
  have inserts : Inserts ⟨before ++ loop.whole :: after⟩
      ⟨before ++ loop.first :: loop.second :: after⟩ (before.length + 1) loop.whole loop.first
      loop.second := by
    refine inserts_of_lines rfl (fun _ _ => rfl) fun a label => ?_
    cases label
    exact fresh
  have distinct' := nodup_labels_by_jumps distinct fresh
  exact {
    inserts := inserts
    start := position?_of_line? distinct' inserts.part₁ rfl unreserved
    finish := position?_of_line? distinct' inserts.part₂ rfl fun same => nomatch same
    absent := position?_eq_none fresh fun same => nomatch same
    unaimed := unaimed }

end Lines

/-- A loop that is alone on a line with a label may be written with jumps, to its own label and to a
new one: the lines are a program, and whenever the program with the loop runs to its end, so does
the one with the jumps, and the same can be seen of both. -/
theorem loop_by_jumps {source : String} {before after : List Line} (loads : load source = .ok p)
    (loop : Loop) (lines : p.lines = before ++ loop.whole :: after)
    (fresh : ∀ l ∈ p.lines, l.label ≠ some (.name loop.finish))
    (unaimed : ∀ l ∈ p.lines, ∀ s ∈ l.parts, s.target? ≠ some (.name loop.finish)) :
    ∃ q, ofLines (before ++ loop.first :: loop.second :: after) = .ok q ∧
      ∀ m n, (p.run n m).ending = .done → ∃ k, (q.run k m).view = (p.run n m).view := by
  have whole : loop.whole ∈ p.lines := by
    rw [lines]
    exact List.mem_append_right before List.mem_cons_self
  have unreserved : loop.label ≠ Label.exit := fun same =>
    label_ne_exit_of_load loads whole (congrArg some same)
  rcases ofLines_eq_ok_iff.1 (ofLines_of_load loads) with ⟨distinct, -⟩
  have same : p = ⟨before ++ loop.whole :: after⟩ := congrArg Program.mk lines
  subst same
  have jumps := loopAt_of_lines distinct unreserved fresh unaimed
  refine ⟨_, ofLines_eq_ok_iff.2 ⟨nodup_labels_by_jumps distinct fresh, rfl⟩, ?_⟩
  intro m n ends
  have start := jumps.enter_matches (entryIndex ⟨before ++ loop.whole :: after⟩)
    (Machine.Alike.refl m)
  rw [← jumps.inserts.entryIndex] at start
  exact jumps.simulation.run_forward (fun ahead => ahead.related.alike)
    (LoopAt.ahead_of_matches ⟨n, ends⟩ (enter_onLine _ _ _) start) n

/-- A loop that counts, and whose body leaves it by a jump. -/
theorem loop_by_jumps_leaving :
    let loop : Loop := {
      label := .num 10
      cond := .binary ⟨1, 10⟩ .less (.var ⟨1, 10⟩ "n") (.int ⟨1, 14⟩ 9)
      body := .ifElse ⟨1, 21⟩ (.binary ⟨1, 24⟩ .eq (.var ⟨1, 24⟩ "n") (.int ⟨1, 29⟩ 1))
        (.goto ⟨1, 36⟩ (some (.num 20)))
        (.assign ⟨1, 49⟩ "n"
          (.binary ⟨1, 57⟩ (.arith .add) (.var ⟨1, 57⟩ "n") (.int ⟨1, 61⟩ 1)))
      finish := "done", linePos := ⟨1, 1⟩, loopPos := ⟨1, 4⟩, testPos := ⟨1, 4⟩
      skipPos := ⟨1, 18⟩, outPos := ⟨1, 27⟩, backPos := ⟨1, 65⟩
      finishPos := ⟨2, 1⟩, restPos := ⟨2, 7⟩ }
    let last : Line := ⟨⟨2, 1⟩, some (.num 20), [.print ⟨2, 4⟩ (.var ⟨2, 10⟩ "n")]⟩
    ∃ p q m,
      load "10 WHILE n < 9 THEN IF n == 1 THEN GOTO 20 ELSE LET n = n + 1\n20 PRINT n" = .ok p ∧
      ofLines [loop.first, loop.second, last] = .ok q ∧ m.env = [("n", .int 0)] ∧
      (p.run 9 m).ending = .done ∧ ∃ k, (q.run k m).view = (p.run 9 m).view := by
  intro loop last
  let m : Machine := ⟨[("n", .int 0)], [], none, []⟩
  have loads := exists_load (P := fun p => p.lines = [] ++ loop.whole :: [last] ∧
      (∀ l ∈ p.lines, l.label ≠ some (.name loop.finish)) ∧
      (∀ l ∈ p.lines, ∀ s ∈ l.parts, s.target? ≠ some (.name loop.finish)) ∧
      (p.run 9 m).ending = .done)
    "10 WHILE n < 9 THEN IF n == 1 THEN GOTO 20 ELSE LET n = n + 1\n20 PRINT n"
    (by decide +kernel)
  rcases loads with ⟨p, loads, lines, fresh, unaimed, ends⟩
  rcases loop_by_jumps loads loop lines fresh unaimed with ⟨q, built, alike⟩
  exact ⟨p, q, m, loads, built, rfl, ends, alike m 9 ends⟩

end Program

end GotoBasic
