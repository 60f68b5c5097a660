import GotoBasic.Proofs.Parser.Productions

/-!
# The productions of lines and programs

The contract `Parser.Reads` of lines and of whole programs.  A program is read to its end if the
bound exceeds the number of tokens (`Parser.program_ensures_end`), since every line takes at
least one.
-/

namespace GotoBasic

namespace Grammar

/-! ## No production of a line is empty -/

/-- A statement has at least its reserved word. -/
theorem Statement.ne_nil {u : List Token} {s : Stmt} (derives : Statement u s) : u ≠ [] := by
  cases derives <;> simp

theorem LineBody.ne_nil {u : List Token} {l : Line} (derives : LineBody u l) : u ≠ [] := by
  obtain ⟨start, -, -, -⟩ := derives
  rintro empty
  rw [empty] at start
  cases start

/-- A label, a statement and more statements are a line, at the position of the first token. -/
theorem exists_lineBody {u v w : List Token} {label : Option Label} {s : Stmt} {ss : List Stmt}
    (decl : LabelDecl u label) (first : Statement v s) (more : MoreStatements w ss) :
    ∃ pos, LineBody (u ++ v ++ w) ⟨pos, label, s :: ss⟩ := by
  cases shape : u ++ v ++ w with
  | nil =>
    simp only [List.append_eq_nil_iff] at shape
    exact absurd shape.1.2 first.ne_nil
  | cons t x =>
    rw [← shape]
    exact ⟨_, .intro (by rw [shape]; rfl) decl first more⟩

/-- Empty lines before the lines of a program. -/
theorem Lines.of_blanks {u v : List Token} {ls : List Line} (blanks : ∀ t ∈ u, t.kind = .newline)
    (more : Lines v ls) : Lines (u ++ v) ls := by
  induction u with
  | nil => exact more
  | cons t u ih =>
    exact .blank (blanks t List.mem_cons_self)
      (ih fun t mem => blanks t (List.mem_cons_of_mem _ mem))

/-- A line together with its end in a text of which `rest` is still to be read: a line feed, or
nothing if nothing is left. -/
def LineEnd (rest : List Token) (u : List Token) (l : Line) : Prop :=
  (LineBody u l ∧ rest = u) ∨ ∃ v t, u = v ++ [t] ∧ t.kind = .newline ∧ LineBody v l

def aLineFeed : List (TokenKind × String) := [(.newline, "\n")]

theorem plain_aLineFeed : ∀ x ∈ aLineFeed, Plain x := by
  intro x mem
  rw [List.mem_singleton.1 mem]
  exact ⟨rfl, by decide, by decide⟩

/-- A line can be ended by a line feed, whatever stands behind it. -/
theorem exists_lineEnd {rest v ws : List Token} {l : Line} (body : LineBody v l)
    (spelled : ws.map Token.spelling = aLineFeed) : ∃ l, LineEnd rest (v ++ ws) l := by
  obtain ⟨t, rfl, spelling⟩ := List.map_eq_singleton_iff.1 spelled
  injection spelling with kind
  exact ⟨l, .inr ⟨v, t, rfl, kind, body⟩⟩

end Grammar

namespace Parser

open Grammar

/-! ## Lines -/

/-- A number is a label by itself, a name only with a colon, and the colon is what completes a name
without one. -/
theorem labelDecl_reads {s : TokenStream} (scanned : s.Scanned) : Reads labelDecl LabelDecl s := by
  have colon : ":" ∈ operatorSpellings := by simp [operatorSpellings]
  unfold labelDecl
  refine Reads.current_bind ?_
  cases kind : s.current.kind with
  | int =>
    rcases integer_cases scanned.current kind with ⟨n, literal, apply⟩ | ⟨-, apply⟩
    · refine Reads.advance_bind scanned (by rw [kind]; decide) ?_
      have isColon := scanned.rest.isSymbol_operator colon
      refine Reads.accept_bind scanned.rest (fun found => ?_) (fun found => ?_) fun _ => ?_
      · rw [(isColon.1 found).1]
        decide
      · unfold Reads
        rw [bind_apply_of_ok (apply _)]
        exact ⟨[], rfl, rfl, .numberColon literal (isColon.1 found)⟩
      · unfold Reads
        rw [bind_apply_of_ok (apply _)]
        exact ⟨[], rfl, rfl, .number literal⟩
    · -- The number is refused only after the colon has been looked for.
      have error : ∃ s', (accept ":" >>= fun _ => integer s.current >>= fun n =>
          pure (some (Label.num n))) s.rest = .error (.integerTooLong s.current) s' := by
        cases found : s.rest.current.isSymbol ":" with
        | true =>
          exact ⟨_, (bind_apply_of_ok (by rw [accept_apply, if_pos found])).trans
            (bind_apply_of_error (apply _))⟩
        | false =>
          exact ⟨_, (bind_apply_of_ok (by rw [accept_apply, if_neg (by simp [found])])).trans
            (bind_apply_of_error (apply _))⟩
      obtain ⟨s', error⟩ := error
      exact Reads.refuse error rfl (.of_derives .none)
  | ident =>
    refine Reads.advance_bind scanned (by rw [kind]; decide) ?_
    have isColon := scanned.rest.isSymbol_operator colon
    refine Reads.accept_bind scanned.rest (fun found => ?_) (fun found => ?_) fun _ => ?_
    · rw [(isColon.1 found).1]
      decide
    · exact Reads.pure (.name kind (isColon.1 found))
    · refine Reads.fail ⟨[(.op, ":")], by simpa using plain_operator colon, fun ws spelled => ?_⟩
      obtain ⟨c, rfl, spelling⟩ := List.map_eq_singleton_iff.1 spelled
      injection spelling with same text
      exact ⟨_, .name kind ⟨same, text⟩⟩
  | _ => exact Reads.pure .none

/-- By induction on the bound: the loop stops where no mark follows, and behind a mark it reads one
more statement. -/
theorem stmtsFrom_reads (n : Nat) {s : TokenStream} (scanned : s.Scanned) :
    Reads (stmtsFrom n) MoreStatements s := by
  induction n generalizing s with
  | zero => exact Reads.pure .nil
  | succ n ih =>
    have mem : "\\" ∈ operatorSpellings := by simp [operatorSpellings]
    have isMark := scanned.isSymbol_operator mem
    unfold stmtsFrom
    refine Reads.accept_bind scanned (fun found => ?_) (fun found => ?_) fun _ => ?_
    · rw [(isMark.1 found).1]
      decide
    · have mark := isMark.1 found
      refine Reads.bind scanned.rest (stmt_reads (n + 1) scanned.rest) [] (by simp) ?_ ?_
      · intro u a first ws spelled
        rw [List.map_eq_nil_iff.1 spelled]
        exact ⟨_, .cons mark first .nil⟩
      · intro u a s' _ scanned' _ first
        exact Reads.map scanned' (ih scanned') fun v ss more => .cons mark first more
    · exact Reads.pure .nil

/-- A line ends behind its line feed, or where no tokens are left. -/
theorem endOfLine_reads {s : TokenStream} (scanned : s.Scanned) :
    Reads endOfLine
      (fun u _ => (u = [] ∧ s.pending = []) ∨ ∃ t : Token, u = [t] ∧ t.kind = .newline) s := by
  unfold endOfLine
  refine Reads.current_bind ?_
  by_cases feed : s.current.kind = .newline
  · rw [if_pos feed]
    exact ⟨[s.current], scanned.pending_eq (by rw [feed]; decide), rfl, .inr ⟨_, rfl, feed⟩⟩
  · rw [if_neg feed]
    by_cases final : s.current.kind = .eof
    · rw [if_pos final]
      exact Reads.pure (.inl ⟨rfl, scanned.pending_eq_nil final⟩)
    · rw [if_neg final]
      refine Reads.fail ⟨aLineFeed, plain_aLineFeed, fun ws spelled => ?_⟩
      obtain ⟨t, rfl, spelling⟩ := List.map_eq_singleton_iff.1 spelled
      injection spelling with kind
      exact ⟨(), .inr ⟨t, rfl, kind⟩⟩

/-- A line is its parts in a row.  If one of them fails, the later ones are completed in the
shortest way: by a statement and a line feed. -/
theorem line_reads (n : Nat) {s : TokenStream} (scanned : s.Scanned) :
    Reads (line n) (LineEnd s.pending) s := by
  have plain : ∀ x ∈ aStatement ++ aLineFeed, Plain x := fun x mem =>
    (List.mem_append.1 mem).elim (plain_aStatement x) (plain_aLineFeed x)
  unfold line
  refine Reads.current_bind ?_
  refine Reads.bind scanned (labelDecl_reads scanned) (aStatement ++ aLineFeed) plain ?_ ?_
  · intro u label decl ws spelled
    obtain ⟨v, ws, rfl, spelled, spelled'⟩ := List.map_eq_append_iff.1 spelled
    obtain ⟨a, first⟩ := exists_statement spelled
    obtain ⟨l, body⟩ := exists_lineBody decl first .nil
    rw [← List.append_assoc, ← List.append_nil (u ++ v)]
    exact exists_lineEnd body spelled'
  intro u label s₁ _ scanned₁ read₁ decl
  refine Reads.bind scanned₁ (stmt_reads n scanned₁) aLineFeed plain_aLineFeed ?_ ?_
  · intro v a first ws spelled
    obtain ⟨l, body⟩ := exists_lineBody decl first .nil
    rw [← List.append_assoc, ← List.append_nil (u ++ v)]
    exact exists_lineEnd body spelled
  intro v a s₂ _ scanned₂ read₂ first
  refine Reads.bind scanned₂ (stmtsFrom_reads n scanned₂) aLineFeed plain_aLineFeed ?_ ?_
  · intro w ss more ws spelled
    obtain ⟨l, body⟩ := exists_lineBody decl first more
    rw [← List.append_assoc, ← List.append_assoc]
    exact exists_lineEnd body spelled
  intro w ss s₃ _ scanned₃ read₃ more
  have read : s.pending = u ++ v ++ w ++ s₃.pending := by
    rw [read₁, read₂, read₃, List.append_assoc, List.append_assoc]
  have start : (u ++ v ++ w).head? = some s.current := by
    cases shape : u ++ v ++ w with
    | nil =>
      simp only [List.append_eq_nil_iff] at shape
      exact absurd shape.1.2 first.ne_nil
    | cons t x => rw [TokenStream.current, read, shape]; rfl
  refine Reads.map scanned₃ (endOfLine_reads scanned₃) ?_
  have body := LineBody.intro start decl first more
  rintro _ _ (⟨rfl, empty⟩ | ⟨t, rfl, feed⟩)
  · rw [empty, List.append_nil] at read
    refine .inl ⟨?_, ?_⟩
    · simpa using body
    · simpa using read
  · exact .inr ⟨u ++ v ++ w, t, by simp, feed, body⟩

/-! ## Programs -/

/-- Only line feeds are passed. -/
theorem skipNewlines_reads (s : TokenStream) :
    Reads skipNewlines (fun u _ => ∀ t ∈ u, t.kind = .newline) s := by
  refine ⟨s.pending.takeWhile fun t => t.kind = .newline, ?_, rfl, ?_⟩
  · exact List.takeWhile_append_dropWhile.symm
  · intro t mem
    simpa using List.all_eq_true.1 List.all_takeWhile t mem

/-- At the end of input there are no more lines. -/
theorem program_apply_of_end (n : Nat) {l : Token} (final : l.kind = .eof) :
    program n ⟨[], l⟩ = .ok [] ⟨[], l⟩ := by
  cases n with
  | zero => rfl
  | succ n =>
    change (if l.kind = .eof then pure [] else _ : Parser (List Line)) ⟨[], l⟩ = _
    rw [if_pos final]
    rfl

theorem program_reads (n : Nat) {s : TokenStream} (scanned : s.Scanned) :
    Reads (program n) Lines s := by
  induction n generalizing s with
  | zero => exact Reads.pure .nil
  | succ n ih =>
    unfold program
    refine Reads.bind scanned (skipNewlines_reads s) [] (by simp) ?_ ?_
    · intro u _ blanks ws spelled
      rw [List.map_eq_nil_iff.1 spelled]
      exact ⟨[], Lines.of_blanks blanks .nil⟩
    intro u _ s₁ _ scanned₁ _ blanks
    refine Reads.current_bind ?_
    by_cases final : s₁.current.kind = .eof
    · rw [if_pos final]
      exact Reads.pure (Lines.of_blanks blanks .nil)
    rw [if_neg final]
    refine Reads.bind scanned₁ (line_reads (n + 1) scanned₁) [] (by simp) ?_ ?_
    · intro v l ended ws spelled
      rw [List.map_eq_nil_iff.1 spelled, List.append_nil]
      rcases ended with ⟨body, -⟩ | ⟨w, t, rfl, feed, body⟩
      · exact ⟨_, .of_blanks blanks (.last body)⟩
      · exact ⟨_, .of_blanks blanks (.cons body feed .nil)⟩
    intro v l s₂ _ scanned₂ read₂ ended
    rcases ended with ⟨body, whole⟩ | ⟨w, t, rfl, feed, body⟩
    · -- The line ends before the end of input, so there is nothing left to be read.
      obtain ⟨pending, last⟩ := s₂
      have empty : pending = [] := by
        rw [whole] at read₂
        exact List.self_eq_append_right.1 read₂
      subst empty
      unfold Reads
      rw [bind_apply_of_ok (program_apply_of_end n scanned₂.last.2)]
      exact ⟨[], rfl, rfl, by simpa using Lines.of_blanks blanks (.last body)⟩
    · refine Reads.map scanned₂ (ih scanned₂) fun x ls more => ?_
      have all := Lines.of_blanks blanks (.cons body feed more)
      simpa using all

/-- A bound greater than the number of tokens suffices to read a program to its end. -/
theorem program_ensures_end (n : Nat) {s : TokenStream} (scanned : s.Scanned)
    (enough : s.pending.length < n) : Ensures (program n) (fun _ s' => s'.pending = []) s := by
  induction n generalizing s with
  | zero => exact absurd enough (Nat.not_lt_zero _)
  | succ n ih =>
    unfold program
    refine Ensures.bind fun _ s₁ skipped => ?_
    obtain ⟨u, read, last, -⟩ := (skipNewlines_reads s).of_ok skipped
    have scanned₁ := scanned.of_append read last
    refine Ensures.bind fun t s₂ looked => ?_
    cases looked
    by_cases final : s₁.current.kind = .eof
    · rw [if_pos final]
      exact Ensures.pure (scanned₁.pending_eq_nil final)
    · rw [if_neg final]
      refine Ensures.bind fun l s₂ ok => Ensures.bind fun ls s₃ ok' => ?_
      obtain ⟨v, read₂, last₂, ended⟩ := (line_reads (n + 1) scanned₁).of_ok ok
      have taken : v ≠ [] := by
        rcases ended with ⟨body, -⟩ | ⟨w, t, rfl, -, -⟩
        · exact body.ne_nil
        · simp
      have shorter : s₂.pending.length < n := by
        have positive := List.length_pos_iff.2 taken
        rw [read, read₂, List.length_append, List.length_append] at enough
        omega
      exact Ensures.pure (ih (scanned₁.of_append read₂ last₂) shorter ls s₃ ok')

end Parser

end GotoBasic
