import GotoBasic.Load
import GotoBasic.Proofs.Run.OnLine
import GotoBasic.Proofs.Syntax.Expressible

/-!
# Programs of texts

The lines of a program that was loaded are what the parser returns.  So no two of them have the same
label, none has the label that is reserved for the end of the program
(`Program.label_ne_exit_of_load`), and all statements on them are such as a text can have
(`Program.expressible_of_load`).
-/

namespace GotoBasic

/-- A text that is a program has been parsed into lines, and these have passed the check of their
labels. -/
theorem exists_lines_of_load {source : String} {p : Program} (loads : load source = .ok p) :
    ∃ ls, parse source = .ok ls ∧ Program.ofLines ls = .ok p := by
  unfold load at loads
  cases parsed : parse source with
  | error e =>
    rw [parsed] at loads
    cases loads
  | ok ls =>
    rw [parsed] at loads
    change (Program.ofLines ls).mapError _ = _ at loads
    refine ⟨ls, rfl, ?_⟩
    cases built : Program.ofLines ls with
    | error e =>
      rw [built] at loads
      cases loads
    | ok q =>
      rw [built] at loads
      cases loads
      rfl

/-- The statements in a statement that a text can have are such statements too. -/
theorem Stmt.Expressible.of_mem_parts {s t : Stmt} (expressible : s.Expressible)
    (part : t ∈ s.parts) : t.Expressible := by
  induction s with
  | ifThen pos cond body ih =>
    rcases List.mem_cons.1 part with rfl | inner
    · exact expressible
    · exact ih expressible.2 inner
  | ifElse pos cond body other ih ih' =>
    rcases List.mem_cons.1 part with rfl | inner
    · exact expressible
    · obtain ⟨-, first, -, second⟩ := expressible
      rcases List.mem_append.1 inner with inner | inner
      · exact ih first inner
      · exact ih' second inner
  | whileThen pos cond body ih =>
    rcases List.mem_cons.1 part with rfl | inner
    · exact expressible
    · exact ih expressible.2 inner
  | _ =>
    rw [List.mem_singleton.1 part]
    exact expressible

namespace Program

variable {source : String} {p : Program}

/-- The lines of a program that was loaded are a program on their own. -/
theorem ofLines_of_load (loads : load source = .ok p) : ofLines p.lines = .ok p := by
  rcases exists_lines_of_load loads with ⟨ls, -, built⟩
  rcases ofLines_eq_ok_iff.1 built with ⟨-, rfl⟩
  exact built

/-- What stands in a program that was loaded is what the parser can give. -/
theorem readable_of_load (loads : load source = .ok p) {l : Line} (mem : l ∈ p.lines) :
    l.Readable := by
  rcases exists_lines_of_load loads with ⟨ls, parsed, built⟩
  rcases ofLines_eq_ok_iff.1 built with ⟨-, rfl⟩
  exact parse_readable parsed l mem

/-- This also holds of the statements inside others. -/
theorem expressible_of_load (loads : load source = .ok p) {l : Line} (mem : l ∈ p.lines) {s : Stmt}
    (part : s ∈ l.parts) : s.Expressible := by
  obtain ⟨s', onLine, inside⟩ := List.mem_flatMap.1 part
  exact ((readable_of_load loads mem).expressible.stmts s' onLine).of_mem_parts inside

/-- Texts have no negative labels. -/
theorem label_ne_exit_of_load (loads : load source = .ok p) {l : Line} (mem : l ∈ p.lines) :
    l.label ≠ some Label.exit := by
  intro label
  have spelled : Label.exit.Expressible := (readable_of_load loads mem).expressible.label _ label
  exact absurd spelled.1 (by decide)

end Program

end GotoBasic
