import GotoBasic.Proofs.Program.Loaded
import GotoBasic.Proofs.Run.Effect
import GotoBasic.Proofs.Run.OnLine
import GotoBasic.Proofs.Run.Simulation
import Mathlib.Data.List.Chain

/-!
# Control flow

If every jump of a program goes to a label that stands before one of its lines, then the text tells
which lines may follow each other: the next one, and those that a jump in the line goes to
(`Program.Leads`).  A run starts lines along these edges only, from the first line with a label on,
and it ends only behind the last line or behind a line with an exit
(`Program.run_follows_control_flow`).  What the variables hold does not matter for this.
-/

namespace GotoBasic

/-! ## The graph of a program -/

/-- The statement is no jump, or its target is a label that stands before a line of `p`. -/
def Stmt.LandsIn (p : Program) : Stmt → Prop
  | .goto _ target => ∃ l ∈ p.lines, l.label.isSome ∧ l.label = target
  | _ => True

instance (p : Program) : (s : Stmt) → Decidable (s.LandsIn p)
  | .goto _ target => inferInstanceAs (Decidable (∃ l ∈ p.lines, l.label.isSome ∧ l.label = target))
  | .print _ _ | .input _ _ | .assign _ _ _ | .ifThen _ _ _ | .ifElse _ _ _ _ | .whileThen _ _ _
  | .nop _ | .exit _ | .unknown _ => .isTrue trivial

namespace Program

/-- Every jump, also within another statement, goes to a label that stands before a line. -/
def Closed (p : Program) : Prop := ∀ l ∈ p.lines, ∀ s ∈ l.parts, s.LandsIn p

instance (p : Program) : Decidable p.Closed :=
  inferInstanceAs (Decidable (∀ l ∈ p.lines, ∀ s ∈ l.parts, s.LandsIn p))

/-- A jump in line `i`, perhaps in another statement, goes to the label of line `j`. -/
def JumpsTo (p : Program) (i j : Nat) : Prop :=
  ∃ l l' pos t, p.line? i = some l ∧ .goto pos (some t) ∈ l.parts ∧
    p.line? j = some l' ∧ l'.label = some t

/-- Line `j` may be started right after line `i`. -/
def Leads (p : Program) (i j : Nat) : Prop := j = i + 1 ∨ p.JumpsTo i j

/-- The program may end right after line `i`. -/
def MayEnd (p : Program) (i : Nat) : Prop :=
  i = p.lines.length ∨ ∃ l pos, p.line? i = some l ∧ .exit pos ∈ l.parts

/-- The number of the first line with a label, or of the first line if none has one. -/
def firstLabelled (p : Program) : Nat :=
  match p.lines.findIdx? fun l => l.label.isSome with
  | some j => j + 1
  | none => 1

/-- The program may start the lines of `path` one after the other, of which line `i` is the last. -/
structure IsRoute (p : Program) (path : List Nat) (i : Nat) : Prop where
  head : path.head? = some p.firstLabelled
  chain : path.IsChain p.Leads
  last : path.getLast? = some i

theorem IsRoute.start (p : Program) : p.IsRoute [p.firstLabelled] p.firstLabelled :=
  ⟨rfl, List.isChain_singleton _, rfl⟩

theorem IsRoute.snoc {p : Program} {path : List Nat} {i j : Nat} (route : p.IsRoute path i)
    (leads : p.Leads i j) : p.IsRoute (path ++ [j]) j := by
  refine ⟨?_, route.chain.append (List.isChain_singleton j) ?_, List.getLast?_concat⟩
  · rw [List.head?_append, route.head]
    rfl
  · intro k last k' first
    rw [route.last] at last
    cases last
    cases first
    exact leads

theorem IsRoute.reaches {p : Program} {path : List Nat} {i j : Nat} (route : p.IsRoute path i)
    (mem : j ∈ path) : Relation.ReflTransGen p.Leads p.firstLabelled j := by
  refine route.chain.induction (Relation.ReflTransGen p.Leads p.firstLabelled) path
    (fun _ _ edge reached => reached.tail edge) (fun ne => ?_) j mem
  have head := route.head
  rw [List.head?_eq_some_head ne] at head
  rw [Option.some.inj head]

theorem get?_labelsFrom_of_findSome? {ls : List Line} {a : Label} (k : Nat)
    (first : ls.findSome? Line.label = some a) :
    ∃ j, ls.findIdx? (fun l => l.label.isSome) = some j ∧
      Assoc.get? (labelsFrom k ls) a = some (k + j) := by
  induction ls generalizing k with
  | nil => cases first
  | cons l ls ih =>
    rw [List.findSome?_cons] at first
    rw [List.findIdx?_cons, get?_labelsFrom_cons]
    cases label : l.label with
    | some b =>
      rw [label] at first
      cases first
      exact ⟨0, rfl, by rw [if_pos rfl, Nat.add_zero]⟩
    | none =>
      rw [label] at first
      rcases ih (k + 1) first with ⟨j, found, position⟩
      refine ⟨j + 1, ?_, ?_⟩
      · rw [found]
        rfl
      · rw [if_neg (fun same => nomatch same), position, Nat.add_right_comm, Nat.add_assoc]

/-- A run starts at the first line with a label. -/
theorem entryIndex_eq_firstLabelled {p : Program}
    (unreserved : ∀ l ∈ p.lines, l.label ≠ some Label.exit) : p.entryIndex = p.firstLabelled := by
  unfold entryIndex firstLabelled
  cases start : p.entry with
  | none =>
    have absent : p.lines.findIdx? (fun l => l.label.isSome) = none := by
      refine List.findIdx?_eq_none_iff.2 fun l mem => ?_
      rw [List.findSome?_eq_none_iff.1 start l mem]
      rfl
    rw [absent]
    rfl
  | some a =>
    rcases List.exists_of_findSome?_eq_some start with ⟨l, mem, label⟩
    have other : Label.exit ≠ a := fun same => unreserved l mem (by rw [label, same])
    rcases get?_labelsFrom_of_findSome? 1 start with ⟨j, found, position⟩
    rw [Option.bind_some, position?_eq, if_neg other, position, found]
    exact Nat.add_comm 1 j

end Program

/-! ## The lines that a run has started -/

/-- The number of the line that an event starts. -/
def Event.started? : Event → Option Nat
  | .lineStarted i _ => some i
  | _ => none

namespace Machine

/-- The numbers of the lines that were started, the earliest first. -/
def started (m : Machine) : List Nat := m.events.filterMap Event.started?

theorem started_record (m : Machine) (e : Event) :
    (m.record e).started = m.started ++ e.started?.toList := by
  unfold started events record
  rw [List.reverse_cons, List.filterMap_append]
  cases e <;> rfl

theorem started_record_eq (m : Machine) {e : Event} (silent : e.started? = none) :
    (m.record e).started = m.started := by
  rw [started_record, silent, Option.toList_none, List.append_nil]

end Machine

/-- Only the change of line starts a line. -/
theorem Action.started_effect (a : Action) (m : Machine) : (a.effect m).started = m.started := by
  cases a with
  | write s => exact m.started_record_eq rfl
  | read x =>
    have taken := Machine.started_record_eq { m with input := m.input.tail }
      (e := .read (m.input.headD "")) rfl
    exact (Machine.started_record_eq _ rfl).trans taken
  | assign x v => exact Machine.started_record_eq { m with env := m.env.set x v } rfl
  | _ => rfl

namespace Program

variable {p : Program}

/-- On the way from machine `m` to machine `m'` lines were started as the text allows, of which line
`i` was the last. -/
def Came (p : Program) (m m' : Machine) (i : Nat) : Prop :=
  ∃ path, m'.started = m.started ++ path ∧ p.IsRoute path i

/-- A step that stays on the graph. -/
def Routed (p : Program) (m : Machine) : Step → Prop
  | .next c => p.OnLine c ∧ p.Came m c.machine c.index
  | .done m' => ∃ i, p.Came m m' i ∧ p.MayEnd i
  | .failed _ m' => ∃ i, p.Came m m' i

theorem Came.of_started_eq {m m₁ m₂ : Machine} {i : Nat} (came : p.Came m m₁ i)
    (same : m₂.started = m₁.started) : p.Came m m₂ i := by
  rcases came with ⟨path, started, route⟩
  exact ⟨path, same.trans started, route⟩

/-- A line that the text allows is started, or there is none of its number. -/
theorem enter_routed {m m' : Machine} {i j : Nat} (came : p.Came m m' i) (leads : p.Leads i j)
    (ends : p.line? j = none → p.MayEnd i) : p.Routed m (p.enter j m') := by
  have onLine := p.enter_onLine j m'
  unfold enter at onLine ⊢
  cases found : p.line? j with
  | none => exact ⟨i, came, ends found⟩
  | some l =>
    rw [found] at onLine
    refine ⟨onLine _ rfl, ?_⟩
    rcases came with ⟨path, started, route⟩
    refine ⟨path ++ [j], ?_, route.snoc leads⟩
    rw [Machine.started_record, ← List.append_assoc, ← started]
    rfl

theorem line?_eq_none_iff {i : Nat} : p.line? (i + 1) = none ↔ p.lines.length ≤ i := by
  unfold line?
  rw [if_neg (Nat.succ_ne_zero i), Nat.add_sub_cancel]
  exact List.getElem?_eq_none_iff

/-- A jump of a closed program goes to its own target. -/
theorem resolve_of_closed {l : Line} {pos : Pos} {target : Option Label} {t : Label} {env : Env}
    (closed : p.Closed) (mem : l ∈ p.lines) (part : .goto pos target ∈ l.parts)
    (resolves : p.resolve env target = .ok t) :
    target = some t ∧ ∃ l' ∈ p.lines, l'.label = some t := by
  rcases closed l mem _ part with ⟨l', mem', labelled, rfl⟩
  rcases Option.isSome_iff_exists.1 labelled with ⟨t', label⟩
  rw [label, resolve_of_isSome (isSome_position?_of_mem mem' label)] at resolves
  cases resolves
  exact ⟨label, l', mem', label⟩

/-- A jump of a closed program goes along an edge of the graph, to a line or behind the last. -/
theorem follow_routed (closed : p.Closed)
    (unreserved : ∀ l ∈ p.lines, l.label ≠ some Label.exit) {m : Machine} {i : Nat} {s : Stmt}
    {rest : List Stmt} {m' : Machine} {t : Label} (onLine : p.OnLine ⟨i, s :: rest, m'⟩)
    (decides : s.action p m'.env = .ok (.leave t))
    (came : ∀ j, p.Came m ({ m' with ip := some t }.record (.jumped t j)) i) :
    p.Routed m (p.follow t { m' with ip := some t }) := by
  rcases onLine.line with ⟨l, found, sub⟩
  have part : s ∈ l.parts := sub List.mem_cons_self
  unfold follow
  dsimp only
  rcases Stmt.of_action_leave decides with ⟨pos, target, rfl, resolves⟩ | ⟨pos, rfl, rfl⟩
  · rcases resolve_of_closed closed (mem_lines_of_line? found) part resolves with
      ⟨rfl, l', mem, label⟩
    have other : t ≠ Label.exit := fun same => unreserved l' mem (by rw [label, same])
    rcases Option.isSome_iff_exists.1 (isSome_position?_of_mem mem label) with ⟨j, position⟩
    rcases exists_line_of_position? position other with ⟨l'', found', label'⟩
    rw [position, Option.getD_some]
    refine enter_routed (came j) (.inr ⟨l, l'', pos, t, found, part, found', label'⟩) ?_
    intro none
    rw [found'] at none
    cases none
  · have beyond : p.line? p.exitIndex = none := line?_eq_none_iff.2 (Nat.le_refl _)
    rw [position?_exit, Option.getD_some]
    unfold enter
    rw [beyond]
    exact ⟨i, came _, .inr ⟨l, pos, found, part⟩⟩

theorem goOn_routed (closed : p.Closed) (unreserved : ∀ l ∈ p.lines, l.label ≠ some Label.exit)
    {m : Machine} {i : Nat} {s : Stmt} {rest : List Stmt} {m' : Machine} {a : Action}
    (onLine : p.OnLine ⟨i, s :: rest, m'⟩) (came : p.Came m m' i)
    (decides : s.action p m'.env = .ok a) : p.Routed m (p.goOn i (a.perform m' rest)) := by
  rcases a.stays_or_leaves with stays | ⟨t, rfl⟩
  · have next := step_onLine onLine
    rw [step_of_stays decides stays] at next
    rw [Action.perform_of_stays stays]
    exact ⟨next _ rfl, came.of_started_eq (a.started_effect m')⟩
  · exact follow_routed closed unreserved onLine decides fun j =>
      came.of_started_eq (Machine.started_record_eq { m' with ip := some t } rfl)

theorem step_routed (closed : p.Closed) (unreserved : ∀ l ∈ p.lines, l.label ≠ some Label.exit)
    {m : Machine} {c : Config} (onLine : p.OnLine c) (came : p.Came m c.machine c.index) :
    p.Routed m (p.step c) := by
  rcases p.step_cases c with ⟨i, m', rfl, step⟩ | ⟨i, s, rest, m', f, rfl, -, step⟩ |
    ⟨i, s, rest, m', a, rfl, decides, step⟩
  · rw [step]
    refine enter_routed came (.inl rfl) fun none => .inl ?_
    exact Nat.le_antisymm onLine.bounds.2 (line?_eq_none_iff.1 none)
  · rw [step]
    exact ⟨i, came⟩
  · rw [step]
    exact goOn_routed closed unreserved onLine came decides

theorem runFrom_routed (closed : p.Closed)
    (unreserved : ∀ l ∈ p.lines, l.label ≠ some Label.exit) {m : Machine} (n : Nat) {s : Step}
    (start : p.Routed m s) :
    ∃ i, p.Came m (p.runFrom n s).machine i ∧ ((p.runFrom n s).ending = .done → p.MayEnd i) := by
  fun_induction p.runFrom n s with
  | case1 n m' =>
    rcases start with ⟨i, came, ends⟩
    exact ⟨i, came, fun _ => ends⟩
  | case2 n f m' =>
    rcases start with ⟨i, came⟩
    exact ⟨i, came, fun done => nomatch done⟩
  | case3 c => exact ⟨c.index, start.2, fun done => nomatch done⟩
  | case4 n c ih => exact ih (step_routed closed unreserved start.1 start.2)

theorem exists_line_of_firstLabelled (nonempty : p.lines ≠ []) :
    ∃ l, p.line? p.firstLabelled = some l := by
  have bounds : 1 ≤ p.firstLabelled ∧ p.firstLabelled ≤ p.lines.length := by
    unfold firstLabelled
    cases found : p.lines.findIdx? fun l => l.label.isSome with
    | none => exact ⟨Nat.le_refl 1, List.length_pos_of_ne_nil nonempty⟩
    | some j =>
      have below := (List.findIdx?_eq_some_iff_getElem.1 found).1
      exact ⟨Nat.le_add_left 1 j, below⟩
  have inside : p.firstLabelled - 1 < p.lines.length := by omega
  exact ⟨p.lines[p.firstLabelled - 1],
    line?_eq_some_iff.2 ⟨bounds.1, List.getElem?_eq_getElem inside⟩⟩

theorem run_eq_done (empty : p.lines = []) (n : Nat) (m : Machine) : p.run n m = .done m := by
  have none : p.line? p.entryIndex = none := by
    unfold line?
    rw [empty]
    split <;> rfl
  unfold run enter
  rw [none]
  cases n <;> rfl

/-- A program whose jumps all go to labels of its lines starts its lines along the edges of its
graph, from the first line with a label on, and ends only behind its last line or behind a line with
an exit.  So it never starts a line that the graph does not reach. -/
theorem run_follows_control_flow {source : String} (loads : load source = .ok p)
    (closed : p.Closed) (m : Machine) (n : Nat) :
    ∃ path, (p.run n m).machine.started = m.started ++ path ∧
      path.head? = (if p.lines = [] then none else some p.firstLabelled) ∧
      path.IsChain p.Leads ∧
      ((p.run n m).ending = .done → ∀ i, path.getLast? = some i → p.MayEnd i) ∧
      ∀ j ∈ path, Relation.ReflTransGen p.Leads p.firstLabelled j := by
  have unreserved : ∀ l ∈ p.lines, l.label ≠ some Label.exit :=
    fun _ mem => label_ne_exit_of_load loads mem
  have entry := entryIndex_eq_firstLabelled unreserved
  by_cases empty : p.lines = []
  · rw [run_eq_done empty, if_pos empty]
    exact ⟨[], (List.append_nil _).symm, rfl, .nil, fun _ _ last => (nomatch last),
      fun _ mem => (nomatch mem)⟩
  · rcases exists_line_of_firstLabelled empty with ⟨l, found⟩
    have onLine := p.enter_onLine p.firstLabelled m
    have start : p.Routed m (p.enter p.firstLabelled m) := by
      unfold enter at onLine ⊢
      rw [found] at onLine ⊢
      exact ⟨onLine _ rfl, [p.firstLabelled], Machine.started_record _ _, .start p⟩
    rw [← entry] at start
    rcases runFrom_routed closed unreserved n start with ⟨i, ⟨path, started, route⟩, ends⟩
    rw [if_neg empty]
    refine ⟨path, started, route.head, route.chain, ?_, fun j mem => route.reaches mem⟩
    intro done j last
    rw [route.last] at last
    cases last
    exact ends done

/-- A loop that jumps to itself from within another statement, and past a line at the end. -/
theorem run_follows_loop :
    ∃ p m,
      load "NOP\n10 LET n = n + 1 \\ IF n < 2 THEN GOTO 10 ELSE GOTO 30\n20 NOP\n30 EXIT\n40 NOP" =
        .ok p ∧ p.Closed ∧ m.env = [("n", .int 0)] ∧ (p.run 20 m).ending = .done ∧
      (p.run 20 m).machine.started = [2, 2, 4] ∧ p.firstLabelled = 2 ∧
      [2, 2, 4].IsChain p.Leads ∧ p.MayEnd 4 ∧
      ∀ j ∈ [2, 2, 4], Relation.ReflTransGen p.Leads 2 j := by
  let m : Machine := ⟨[("n", .int 0)], [], none, []⟩
  rcases exists_load
    (P := fun p => p.Closed ∧ (p.run 20 m).ending = .done ∧
      (p.run 20 m).machine.started = [2, 2, 4] ∧ p.firstLabelled = 2)
    "NOP\n10 LET n = n + 1 \\ IF n < 2 THEN GOTO 10 ELSE GOTO 30\n20 NOP\n30 EXIT\n40 NOP"
    (by decide +kernel) with ⟨p, loads, closed, ends, lines, first⟩
  rcases run_follows_control_flow loads closed m 20 with
    ⟨path, started, -, chain, last, reached⟩
  have same : path = [2, 2, 4] := started.symm.trans lines
  rw [same] at chain last reached
  rw [first] at reached
  exact ⟨p, m, loads, closed, rfl, ends, lines, first, chain, last ends 4 rfl, reached⟩

end Program

end GotoBasic
