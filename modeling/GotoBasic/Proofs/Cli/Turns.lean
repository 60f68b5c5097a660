import GotoBasic.Cli
import GotoBasic.Proofs.Run.Action

/-!
# Turns put together

An invocation takes its program forward one step at a time, prints what the step has written and
forgets it, and fetches a line of input only when a statement asks for one.  A run keeps the record
of all steps and has all input from the start.  Both come to the same (`Cli.Turn.finish_ofText`).

A step never looks at the record of what happened, and at the input only to take its first line
(`Program.step_onto`).  So every step of an invocation is the step of the run, with the events of
earlier turns behind its own and the lines not yet fetched as its input.
-/

namespace GotoBasic

/-! ## A step with more behind it -/

section Onto

variable (lines : List String) (older : List Event)

/-- The machine with these lines as its input, and with older events behind its own. -/
def Machine.onto (m : Machine) : Machine := { m with input := lines, trace := m.trace ++ older }

def Config.onto (c : Config) : Config := { c with machine := c.machine.onto lines older }

def Step.onto : Step → Step
  | .next c => .next (c.onto lines older)
  | .done m => .done (m.onto lines older)
  | .failed f m => .failed f (m.onto lines older)

namespace Program

variable (p : Program)

theorem enter_onto (i : Nat) (m : Machine) :
    p.enter i (m.onto lines older) = (p.enter i m).onto lines older := by
  unfold enter
  cases p.line? i with
  | none => rfl
  | some l => rfl

/-- The effect of an action that reads nothing, however much lies behind the machine. -/
theorem goOn_onto (i : Nat) (m : Machine) (rest : List Stmt) {a : Action}
    (silent : ∀ x, a ≠ .read x) :
    p.goOn i (a.perform (m.onto lines older) rest) =
      (p.goOn i (a.perform m rest)).onto lines older := by
  cases a with
  | read x => exact absurd rfl (silent x)
  | leave l =>
    let jumped := { m with ip := some l }.record (.jumped l ((p.position? l).getD p.exitIndex))
    exact p.enter_onto lines older _ jumped
  | _ => rfl

/-- A statement that asks for no input leaves the lines alone. -/
theorem step_onto_of_silent {c : Config} (silent : Cli.asksInput c.rest = false) :
    p.step (c.onto lines older) = (p.step c).onto lines older := by
  rcases p.step_cases c with ⟨i, m, rfl, step⟩ | ⟨i, s, rest, m, f, rfl, fails, step⟩ |
    ⟨i, s, rest, m, a, rfl, decides, step⟩
  · rw [step]
    exact p.enter_onto lines older (i + 1) m
  · rw [step]
    exact step_of_fault fails
  · have decides' : s.action p (m.onto lines older).env = .ok a := decides
    rw [step]
    refine (step_of_action decides').trans (p.goOn_onto lines older i m rest fun x reads => ?_)
    subst reads
    obtain ⟨pos, rfl⟩ := Stmt.of_action_read decides
    cases silent

/-- An input statement takes the first of the lines. -/
theorem step_onto_of_asks {c : Config} (asks : Cli.asksInput c.rest)
    (first : c.machine.input = lines.take 1) :
    p.step (c.onto lines older) = (p.step c).onto (lines.drop 1) older := by
  rcases c with ⟨i, rest, env, input, ip, trace⟩
  cases first
  cases rest with
  | nil => cases asks
  | cons s rest =>
    cases s with
    | input pos x => cases lines <;> rfl
    | _ => cases asks

/-- A step of the run is the step of the invocation that has fetched the line which the step asks
for. -/
theorem step_onto {c : Config}
    (fetched : c.machine.input = if Cli.asksInput c.rest then lines.take 1 else []) :
    p.step (c.onto lines older) =
      (p.step c).onto (if Cli.asksInput c.rest then lines.drop 1 else lines) older := by
  cases asks : Cli.asksInput c.rest with
  | true =>
    rw [asks] at fetched
    exact p.step_onto_of_asks lines older asks fetched
  | false => exact p.step_onto_of_silent lines older asks

end Program

end Onto

namespace Cli

variable {read : Reader} {p : Program} {debug : Bool} {lines : List String} {t : Turn}
  {n : Nat} {r : Report}

theorem noteLines_append (debug : Bool) (es es' : List Event) :
    noteLines debug (es ++ es') = noteLines debug es ++ noteLines debug es' := by
  unfold noteLines
  cases debug with
  | false => rfl
  | true => simp

@[simp] theorem noteLines_false (es : List Event) : noteLines false es = "" := rfl

/-- What is printed of a run that has ended, with notes that stand in front. -/
def ofOutcome (debug : Bool) (notes : String) : Outcome → Option Report
  | .done m => some ⟨.code 0, String.join m.output, notes ++ noteLines debug m.events⟩
  | .failed f m =>
    some ⟨.code 1, String.join m.output, notes ++ noteLines debug m.events ++ faultComplaint f⟩
  | .running _ => none

/-- What is printed of loading and running a text. -/
def ofResult (debug : Bool) (source : String) : Except LoadError Outcome → Option Report
  | .error e => some ⟨.code 1, "", noteLines debug (loadNotes source) ++ loadComplaint e⟩
  | .ok o => ofOutcome debug (noteLines debug (loadNotes source)) o

/-! ## Turns -/

namespace Turn

@[simp] theorem finish_of_ended (n : Nat) (lines : List String) (out err : String) (exit : Exit) :
    finish read n lines ⟨out, err, .ended exit⟩ = some ⟨exit, out, err⟩ := by
  cases n <;> rfl

/-- The text that events write. -/
def written (es : List Event) : String := String.join (es.filterMap Event.written?)

/-- The turn of a step, with what the older events say printed before it. -/
def ofStepAfter (p : Program) (debug : Bool) (notes : String) (older : List Event) (s : Step) :
    Turn :=
  (ofStep p debug s).after (written older.reverse) (notes ++ noteLines debug older.reverse)

theorem ofStepAfter_nil (notes : String) (s : Step) :
    ofStepAfter p debug notes [] s = (ofStep p debug s).after "" notes := by
  have nothing : noteLines debug [] = "" := by cases debug <;> rfl
  change (ofStep p debug s).after "" (notes ++ noteLines debug []) = _
  rw [nothing, String.append_empty]

/-- With the events of a machine, what has been printed grows by what the machine has a record
of. -/
theorem printed_append (debug : Bool) (notes : String) (m : Machine) (older : List Event) :
    written (m.trace ++ older).reverse = written older.reverse ++ String.join m.output ∧
      notes ++ noteLines debug (m.trace ++ older).reverse =
        notes ++ noteLines debug older.reverse ++ noteLines debug m.events := by
  rw [List.reverse_append, noteLines_append, String.append_assoc]
  exact ⟨by simp [written, Machine.output, Machine.events], rfl⟩

theorem finish_ofStepAfter_done (notes : String) (n : Nat) (lines : List String)
    (older : List Event) (m : Machine) :
    (ofStepAfter p debug notes older (.done m)).finish read n lines =
      ofOutcome debug notes (.done (m.onto lines older)) := by
  obtain ⟨out, err⟩ := printed_append debug notes m older
  simp only [ofStepAfter, ofStep, after]
  rw [← out, ← err]
  exact finish_of_ended n lines _ _ _

theorem finish_ofStepAfter_failed (notes : String) (n : Nat) (lines : List String)
    (older : List Event) (f : Fault) (m : Machine) :
    (ofStepAfter p debug notes older (.failed f m)).finish read n lines =
      ofOutcome debug notes (.failed f (m.onto lines older)) := by
  obtain ⟨out, err⟩ := printed_append debug notes m older
  simp only [ofStepAfter, ofStep, after]
  rw [← out, ← String.append_assoc, ← err]
  exact finish_of_ended n lines _ _ _

/-- The configuration with the line of input that its step asks for, and no other. -/
def fetched (lines : List String) (c : Config) : Config :=
  let input := if asksInput c.rest then lines.take 1 else []
  { c with machine := { c.machine with input := input } }

/-- The lines that are left for later steps. -/
def remaining (lines : List String) (c : Config) : List String :=
  if asksInput c.rest then lines.drop 1 else lines

theorem proceed_running (lines : List String) (c : Config) :
    (proceed (Host.ofReader read) (.running p debug c)).run lines =
      (ofStep p debug (p.step (fetched lines c)), remaining lines c) := by
  cases asks : asksInput c.rest <;>
    simp only [proceed, fetched, remaining, asks] <;> rfl

/-- One turn of a program under way. -/
theorem finish_ofStepAfter_next (notes : String) (n : Nat) (lines : List String)
    (older : List Event) (c : Config) :
    (ofStepAfter p debug notes older (.next c)).finish read (n + 1) lines =
      let c' : Config := { c with machine := { c.machine with trace := [] } }
      (ofStepAfter p debug notes (c.machine.trace ++ older) (p.step (fetched lines c'))).finish
        read n (remaining lines c') := by
  obtain ⟨out, err⟩ := printed_append debug notes c.machine older
  simp only [ofStepAfter, finish, ofStep, after, proceed_running]
  rw [out, err]

/-- From any step on, the turns of an invocation print what the run has a record of. -/
theorem finish_ofStepAfter (notes : String) (n : Nat) (lines : List String) (older : List Event)
    (s : Step) :
    (ofStepAfter p debug notes older s).finish read n lines =
      ofOutcome debug notes (p.runFrom n (s.onto lines older)) := by
  induction n generalizing lines older s with
  | zero =>
    cases s with
    | next c => rfl
    | done m => exact finish_ofStepAfter_done notes 0 lines older m
    | failed f m => exact finish_ofStepAfter_failed notes 0 lines older f m
  | succ n ih =>
    cases s with
    | next c =>
      -- The step that the invocation takes starts without the record of the older ones.
      let c' : Config := { c with machine := { c.machine with trace := [] } }
      have step : p.step (c.onto lines older) =
          (p.step (fetched lines c')).onto (remaining lines c') (c.machine.trace ++ older) :=
        p.step_onto lines (c.machine.trace ++ older) (c := fetched lines c') rfl
      rw [finish_ofStepAfter_next]
      dsimp only
      rw [ih, ← step]
      rfl
    | done m => exact finish_ofStepAfter_done notes (n + 1) lines older m
    | failed f m => exact finish_ofStepAfter_failed notes (n + 1) lines older f m

/-- The turns of loading a text and running its program print what loading and running come to. -/
theorem finish_ofText (n : Nat) (lines : List String) (debug : Bool) (source : String) :
    (ofText debug source).finish read n lines =
      ofResult debug source (runSource n source { Machine.fresh with input := lines }) := by
  rw [runSource_eq_map]
  unfold ofText
  cases load source with
  | error e => exact finish_of_ended n lines _ _ _
  | ok p =>
    have entered : p.enter p.entryIndex { Machine.fresh with input := lines } =
        (p.enter p.entryIndex Machine.fresh).onto lines [] :=
      p.enter_onto lines [] p.entryIndex Machine.fresh
    let notes := noteLines debug (loadNotes source)
    change ((ofStep p debug (p.enter p.entryIndex Machine.fresh)).after "" notes).finish read n
      lines = ofOutcome debug notes (p.runFrom n (p.enter p.entryIndex _))
    rw [entered, ← finish_ofStepAfter, ofStepAfter_nil]

/-- More turns than enough change nothing. -/
theorem finish_add (finishes : t.finish read n lines = some r) (k : Nat) :
    t.finish read (n + k) lines = some r := by
  induction n generalizing t lines with
  | zero =>
    rcases t with ⟨out, err, stage⟩
    cases stage with
    | ended exit => rw [finish_of_ended] at finishes ⊢; exact finishes
    | _ => cases finishes
  | succ n ih =>
    rcases t with ⟨out, err, stage⟩
    rw [Nat.succ_add]
    cases stage with
    | ended exit => exact finishes
    | _ => exact ih finishes

end Turn

end Cli

end GotoBasic
