import GotoBasic.Proofs.Parser.ViablePrefix
import GotoBasic.Proofs.Syntax.Derivation

/-!
# Lines parse independently of each other

Line feeds stand between lines and nowhere else: no production of a line holds one
(`Grammar.LineBody.feedless`).  So the grammar splits tokens at every line feed
(`Grammar.Lines.split`), and the parser goes on behind a line as if nothing stood before it
(`parseTokens_of_line`).  An error in the lines before a line feed never is about
the end of input, so it does not matter what stands behind them.  Together this is
`parseTokens_append`.
-/

namespace GotoBasic

namespace Grammar

variable {t : Token} {u v : List Token} {e : Expr} {s : Stmt} {ss : List Stmt}
  {label : Option Label} {l : Line} {ls ls' : List Line}

/-! ## Line feeds in the grammar -/

/-- There are no line feeds among the tokens. -/
def Feedless (u : List Token) : Prop := ∀ t ∈ u, t.kind ≠ .newline

/-- The tokens end where a line ends: there are none, or the last of them is a line feed. -/
def WholeLines (u : List Token) : Prop := ∀ t ∈ u.getLast?, t.kind = .newline

theorem feedless_nil : Feedless [] := List.forall_mem_nil _

theorem feedless_append : Feedless (u ++ v) ↔ Feedless u ∧ Feedless v :=
  List.forall_mem_append

/-- A token of another kind is no line feed. -/
theorem feedless_singleton {kind : TokenKind} (same : t.kind = kind) (other : kind ≠ .newline) :
    Feedless [t] := by
  rw [← same] at other
  exact List.forall_mem_singleton.2 other

theorem Word.feedless {k : Keyword} (word : Word k t) : Feedless [t] :=
  feedless_singleton word nofun

theorem Operator.feedless {symbol : String} (operator : Operator symbol t) : Feedless [t] :=
  feedless_singleton operator.1 nofun

theorem feedlessRules : ExpressionRules fun u _ => Feedless u where
  int literal := feedless_singleton literal.kind nofun
  float literal := feedless_singleton literal.kind nofun
  string kind := feedless_singleton kind nofun
  bool kind := feedless_singleton kind nofun
  var kind := feedless_singleton kind nofun
  group left inner right :=
    feedless_append.2 ⟨feedless_append.2 ⟨left.feedless, inner⟩, right.feedless⟩
  unary _ operator operand := feedless_append.2 ⟨operator.feedless, operand⟩
  binary _ operator left right :=
    feedless_append.2 ⟨left, feedless_append.2 ⟨operator.feedless, right⟩⟩

theorem Expression.feedless (derives : Expression u e) : Feedless u := derives.holds feedlessRules

theorem Target.feedless {a : Label} (derives : Target t a) : Feedless [t] := by
  cases derives with
  | number literal => exact feedless_singleton literal.kind nofun
  | name kind => exact feedless_singleton kind nofun

theorem Statement.feedless (derives : Statement u s) : Feedless u := by
  induction derives with
  | print word value => exact feedless_append.2 ⟨word.feedless, value.feedless⟩
  | input word name =>
    exact feedless_append.2 ⟨word.feedless, feedless_singleton name nofun⟩
  | assign word name sign value =>
    exact feedless_append.2 ⟨word.feedless, feedless_append.2 ⟨feedless_singleton name nofun,
      feedless_append.2 ⟨sign.feedless, value.feedless⟩⟩⟩
  | ifThen word cond thenWord body ih =>
    exact feedless_append.2 ⟨feedless_append.2 ⟨word.feedless, cond.feedless⟩,
      feedless_append.2 ⟨thenWord.feedless, ih⟩⟩
  | ifElse word cond thenWord body nearest elseWord other ih ih' =>
    have front := feedless_append.2 ⟨feedless_append.2 ⟨word.feedless, cond.feedless⟩,
      feedless_append.2 ⟨thenWord.feedless, ih⟩⟩
    exact feedless_append.2 ⟨front, feedless_append.2 ⟨elseWord.feedless, ih'⟩⟩
  | whileThen word cond thenWord body ih =>
    exact feedless_append.2 ⟨feedless_append.2 ⟨word.feedless, cond.feedless⟩,
      feedless_append.2 ⟨thenWord.feedless, ih⟩⟩
  | goto word target => exact feedless_append.2 ⟨word.feedless, target.feedless⟩
  | nop word => exact word.feedless
  | exit word => exact word.feedless

theorem LabelDecl.feedless (derives : LabelDecl u label) : Feedless u := by
  cases derives with
  | none => exact feedless_nil
  | number literal => exact feedless_singleton literal.kind nofun
  | numberColon literal colon =>
    exact feedless_append.2 ⟨feedless_singleton literal.kind nofun, colon.feedless⟩
  | name kind colon => exact feedless_append.2 ⟨feedless_singleton kind nofun, colon.feedless⟩

theorem MoreStatements.feedless (derives : MoreStatements u ss) : Feedless u := by
  induction derives with
  | nil => exact feedless_nil
  | cons mark first more ih =>
    exact feedless_append.2 ⟨feedless_append.2 ⟨mark.feedless, first.feedless⟩, ih⟩

/-- A line has its line feed behind it and nowhere else. -/
theorem LineBody.feedless (derives : LineBody u l) : Feedless u := by
  obtain ⟨-, decl, first, more⟩ := derives
  exact feedless_append.2 ⟨feedless_append.2 ⟨decl.feedless, first.feedless⟩, more.feedless⟩

/-! ## Splitting and joining lines -/

theorem WholeLines.of_append (whole : WholeLines (u ++ v)) : WholeLines v := by
  intro t last
  refine whole t ?_
  rw [List.getLast?_append, last]
  rfl

theorem WholeLines.behind (whole : WholeLines (u ++ t :: v)) : WholeLines v := by
  rw [← List.singleton_append, ← List.append_assoc] at whole
  exact whole.of_append

/-- A line without its line feed is no whole line. -/
theorem WholeLines.eq_nil (whole : WholeLines u) (feedless : Feedless u) : u = [] := by
  by_contra taken
  have last := whole _ (List.getLast?_eq_some_getLast taken)
  exact feedless _ (List.getLast_mem taken) last

/-- Behind whole lines the grammar starts anew. -/
theorem Lines.split (derives : Lines (u ++ v) ls) (whole : WholeLines u) :
    ∃ ls₁ ls₂, ls = ls₁ ++ ls₂ ∧ Lines u ls₁ ∧ Lines v ls₂ := by
  generalize joined : u ++ v = w at derives
  induction derives generalizing u with
  | nil =>
    obtain ⟨rfl, rfl⟩ := List.append_eq_nil_iff.1 joined
    exact ⟨[], [], rfl, .nil, .nil⟩
  | @blank t w ls feed more ih =>
    cases u with
    | nil =>
      rw [List.nil_append] at joined
      rw [joined]
      exact ⟨[], ls, rfl, .nil, .blank feed more⟩
    | cons t' u =>
      rw [List.cons_append] at joined
      obtain ⟨rfl, rest⟩ := List.cons.inj joined
      obtain ⟨ls₁, ls₂, rfl, first, second⟩ := ih (whole.of_append (u := [t'])) rest
      exact ⟨ls₁, ls₂, rfl, .blank feed first, second⟩
  | @last w l body =>
    have feedless := body.feedless
    rw [← joined, feedless_append] at feedless
    obtain rfl := whole.eq_nil feedless.1
    rw [List.nil_append] at joined
    rw [joined]
    exact ⟨[], [l], rfl, .nil, .last body⟩
  | @cons t w x l ls body feed more ih =>
    rcases List.append_eq_append_iff.1 joined with ⟨w', rfl, rest⟩ | ⟨u', rfl, rest⟩
    · -- The cut stands in the line or right before its line feed, so nothing is before it.
      obtain rfl := whole.eq_nil (feedless_append.1 body.feedless).1
      rw [rest]
      exact ⟨[], l :: ls, rfl, .nil, .cons body feed more⟩
    · cases u' with
      | nil =>
        rw [List.append_nil] at whole
        exact absurd (whole.eq_nil body.feedless) body.ne_nil
      | cons t' u' =>
        obtain ⟨rfl, rfl⟩ := List.cons.inj rest
        obtain ⟨ls₁, ls₂, rfl, first, second⟩ := ih whole.behind rfl
        exact ⟨l :: ls₁, ls₂, rfl, .cons body feed first, second⟩

end Grammar

open Grammar

/-! ## Parsing behind whole lines -/

variable {s : TokenStream} {t l last : Token} {u v : List Token} {a : Line} {ls : List Line}
  {e : ParseError}

/-- Every bound that exceeds the number of tokens serves to parse them. -/
theorem parseTokens_eq_of_bound {n : Nat} (scanned : s.Scanned) (enough : s.pending.length < n) :
    parseTokens s.toTokens =
      match Parser.program n s with
      | .ok ls _ => .ok ls
      | .error e _ => .error e := by
  obtain ⟨pending, last⟩ := s
  have local_ := Parser.program_local scanned
  rw [parseTokens_toTokens scanned]
  cases result : Parser.program (TokenStream.bound ⟨pending, last⟩) ⟨pending, last⟩ with
  | ok ls s' =>
    obtain ⟨u, read, same, agrees⟩ := local_.ok (Nat.le_refl _) result
    dsimp only at read same
    subst read
    rw [agrees n s'.pending last enough (by rw [← same]; rfl)]
  | error e s' =>
    obtain ⟨u, r, read, found, agrees⟩ := local_.error (Nat.le_refl _) result
    dsimp only at read found
    subst read
    obtain ⟨s'', refused⟩ := agrees n r last enough found.symm
    rw [refused]

/-- Empty lines before the first line do not count. -/
theorem parseTokens_of_blank (feed : t.kind = .newline)
    (scanned : TokenStream.Scanned ⟨t :: u, l⟩) :
    parseTokens (t :: u ++ [l]) = parseTokens (u ++ [l]) := by
  have first := parseTokens_eq_of_bound (n := u.length + 2) scanned (Nat.lt_succ_self _)
  have second := parseTokens_eq_of_bound (n := u.length + 2) scanned.rest (Nat.le_succ _)
  rw [Parser.program_apply_of_blank feed] at first
  exact first.trans second.symm

/-- Behind a line the parser goes on as if nothing stood before it. -/
theorem parseTokens_of_line (body : LineBody u a) (feed : t.kind = .newline)
    (scanned : TokenStream.Scanned ⟨u ++ t :: v, l⟩) :
    parseTokens (u ++ t :: v ++ [l]) = (parseTokens (v ++ [l])).map (a :: ·) := by
  have scanned' : TokenStream.Scanned ⟨v, l⟩ :=
    scanned.of_append (u := u ++ [t]) (by simp) rfl
  have below : v.length < (u ++ t :: v).length := by
    rw [List.length_append, List.length_cons]
    omega
  have first := parseTokens_eq_of_bound scanned (Nat.lt_succ_self _)
  have second := parseTokens_eq_of_bound scanned' below
  rw [Parser.program_apply_of_line body scanned (Nat.lt_succ_self _) (.inr feed)] at first
  refine first.trans (Eq.trans ?_ (congrArg (Except.map (a :: ·)) second.symm))
  rw [List.tail_cons]
  cases result : Parser.program (u ++ t :: v).length ⟨v, l⟩ with
  | ok ls s' => rw [Parser.bind_apply_of_ok result]; rfl
  | error e s' => rw [Parser.bind_apply_of_error result]; rfl

/-- Behind whole lines the parser goes on as if nothing stood before them. -/
theorem parseTokens_of_lines (derives : Lines u ls) (whole : WholeLines u)
    (scanned : TokenStream.Scanned ⟨u ++ v, l⟩) :
    parseTokens (u ++ v ++ [l]) = (parseTokens (v ++ [l])).map (ls ++ ·) := by
  induction derives with
  | nil =>
    cases parsed : parseTokens (v ++ [l]) with
    | ok ls => rw [List.nil_append, parsed]; rfl
    | error e => rw [List.nil_append, parsed]; rfl
  | @blank t u ls feed more ih =>
    rw [List.cons_append] at scanned ⊢
    rw [parseTokens_of_blank feed scanned]
    exact ih (whole.of_append (u := [t])) scanned.rest
  | last body => exact absurd (whole.eq_nil body.feedless) body.ne_nil
  | @cons t u w a ls body feed more ih =>
    have shape : u ++ t :: w ++ v = u ++ t :: (w ++ v) := List.append_assoc u (t :: w) v
    rw [shape] at scanned ⊢
    have scanned' : TokenStream.Scanned ⟨w ++ v, l⟩ :=
      scanned.of_append (u := u ++ [t]) (by simp) rfl
    rw [parseTokens_of_line body feed scanned, ih whole.behind scanned']
    cases parseTokens (v ++ [l]) with
    | ok ls' => rfl
    | error e => rfl

/-! ## Errors before a line feed -/

/-- What can be completed can be parsed up to the last of its line feeds. -/
theorem lines_of_completable (completable : Completable Lines u) (whole : WholeLines u) :
    ∃ ls, Lines u ls := by
  obtain ⟨w, -, derives⟩ := completable
  obtain ⟨ls, lines⟩ := derives (w.map fun x => ⟨x.1, x.2, Pos.start⟩) (by
    rw [List.map_map]
    exact List.map_id' w)
  obtain ⟨ls₁, -, -, first, -⟩ := lines.split whole
  exact ⟨ls₁, first⟩

/-- An error in whole lines is not about the end of input, so it stays when more lines follow. -/
theorem parseTokens_error_of_whole (scanned : TokenStream.Scanned ⟨u, l⟩) (whole : WholeLines u)
    (error : parseTokens (u ++ [l]) = .error e) (us : List Token) :
    parseTokens (u ++ us) = .error e := by
  obtain ⟨x, r, read, found, same⟩ := parseTokens_error_of_append scanned error
  dsimp only at read found
  cases r with
  | cons t r =>
    have head : e.token = t := found
    rw [read, List.append_assoc, List.cons_append, ← head]
    exact same (r ++ us)
  | nil =>
    obtain ⟨x', r', read', found', completable⟩ := parseTokens_error_completable scanned error
    dsimp only at read' found'
    cases r' with
    | cons t r' =>
      -- The end of input stands nowhere among the tokens before it.
      have mem : t ∈ u := by rw [read']; exact List.mem_append_right x' List.mem_cons_self
      have same : t = l := found'.symm.trans found
      rw [same] at mem
      exact absurd scanned.last.2 (scanned.pending l mem).2
    | nil =>
      rw [List.append_nil] at read'
      rw [← read'] at completable
      obtain ⟨ls, lines⟩ := lines_of_completable completable whole
      have accepted := (parseTokens_eq_ok_iff scanned).2 ((program_toTokens_iff scanned).2 lines)
      rw [TokenStream.toTokens, error] at accepted
      cases accepted

/-! ## The end of input -/

/-- What stands behind the first end of input is never read. -/
theorem parseTokens_append_eof (inside : ∀ t ∈ u, t.kind ≠ .eof) (final : l.kind = .eof)
    (us : List Token) : parseTokens (u ++ l :: us) = parseTokens (u ++ [l]) := by
  unfold parseTokens
  rw [TokenStream.ofTokens_append_eof inside final, TokenStream.ofTokens_append_eof inside final]

/-- Tokens with an end of input have a first one. -/
theorem exists_first_eof {ts : List Token} (mem : t ∈ ts) (eof : t.kind = .eof) :
    ∃ u l us, ts = u ++ l :: us ∧ l.kind = .eof ∧ ∀ t ∈ u, t.kind ≠ .eof := by
  cases found : ts.find? Token.isEof with
  | none => exact absurd eof (by simpa [Token.isEof] using List.find?_eq_none.1 found t mem)
  | some l =>
    obtain ⟨final, u, us, rfl, front⟩ := List.find?_eq_some_iff_append.1 found
    refine ⟨u, l, us, rfl, by simpa [Token.isEof] using final, fun t mem => ?_⟩
    simpa [Token.isEof] using front t mem

/-! ## Lines and lines -/

/-- Whole lines and what follows them parse apart: the first error counts, and without an error the
lines of both stand one behind the other. -/
theorem parseTokens_append {ts : List Token} (first : ∀ t ∈ u, t.WellFormed ∧ t.kind ≠ .eof)
    (whole : WholeLines u) (final : l.WellFormed ∧ l.kind = .eof)
    (second : ∀ t ∈ ts, t.WellFormed) (ended : ∃ t ∈ ts.getLast?, t.kind = .eof) :
    parseTokens (u ++ ts) = do
      let ls ← parseTokens (u ++ [l])
      let ls' ← parseTokens ts
      return ls ++ ls' := by
  have scanned : TokenStream.Scanned ⟨u, l⟩ := ⟨first, final⟩
  cases parsed : parseTokens (u ++ [l]) with
  | error e => exact parseTokens_error_of_whole scanned whole parsed ts
  | ok ls =>
    have lines : Lines u ls :=
      (program_toTokens_iff scanned).1 ((parseTokens_eq_ok_iff scanned).1 parsed)
    obtain ⟨t, last, eof⟩ := ended
    obtain ⟨v, l', us, rfl, final', inside⟩ :=
      exists_first_eof (List.mem_of_getLast? last) eof
    have scanned' : TokenStream.Scanned ⟨u ++ v, l'⟩ := by
      refine ⟨fun t mem => ?_, second l' (by simp), final'⟩
      rcases List.mem_append.1 mem with mem | mem
      · exact first t mem
      · exact ⟨second t (List.mem_append_left _ mem), inside t mem⟩
    have inside' (t : Token) (mem : t ∈ u ++ v) : t.kind ≠ .eof := (scanned'.pending t mem).2
    rw [← List.append_assoc, parseTokens_append_eof inside' final',
      parseTokens_of_lines lines whole scanned', ← parseTokens_append_eof inside final' us]
    cases parseTokens (v ++ l' :: us) with
    | ok ls' => rfl
    | error e => rfl

/-- A parenthesis that is open at the end of its line is reported there, also behind other lines. -/
theorem parseTokens_append_open_parenthesis :
    ∃ u l ts, tokenize "x: NOP\n// again\nGOTO x\n" = .ok (u ++ [l]) ∧
      tokenize "PRINT (\n1)" = .ok ts ∧ WholeLines u ∧
      parseTokens (u ++ ts) = (do
        let ls ← parseTokens (u ++ [l])
        let ls' ← parseTokens ts
        return ls ++ ls') ∧
      parseTokens (u ++ ts) = .error (.expected .expression ⟨.newline, "\n", ⟨1, 8⟩⟩) := by
  have tokens : tokenize "x: NOP\n// again\nGOTO x\n" =
      .ok ([⟨.ident, "x", ⟨1, 1⟩⟩, ⟨.op, ":", ⟨1, 2⟩⟩, ⟨.keyword .nopWord, "NOP", ⟨1, 4⟩⟩,
        ⟨.newline, "\n", ⟨1, 7⟩⟩, ⟨.keyword .gotoWord, "GOTO", ⟨3, 1⟩⟩, ⟨.ident, "x", ⟨3, 6⟩⟩,
        ⟨.newline, "\n", ⟨3, 7⟩⟩] ++ [⟨.eof, "", ⟨4, 1⟩⟩]) := by
    decide +kernel
  have tokens' : tokenize "PRINT (\n1)" =
      .ok ([⟨.keyword .printWord, "PRINT", ⟨1, 1⟩⟩, ⟨.op, "(", ⟨1, 7⟩⟩, ⟨.newline, "\n", ⟨1, 8⟩⟩,
        ⟨.int, "1", ⟨2, 1⟩⟩, ⟨.op, ")", ⟨2, 2⟩⟩] ++ [⟨.eof, "", ⟨2, 3⟩⟩]) := by
    decide +kernel
  obtain ⟨s, scanned, same⟩ := tokenize_scanned tokens
  obtain ⟨s', scanned', same'⟩ := tokenize_scanned tokens'
  obtain ⟨read, last⟩ := List.append_inj' same rfl
  have whole : WholeLines s.pending := by
    rw [read]
    exact fun t mem => Option.some.inj mem ▸ rfl
  have ended : ∃ t ∈ s'.toTokens.getLast?, t.kind = .eof :=
    ⟨s'.last, List.getLast?_concat, scanned'.last.2⟩
  refine ⟨s.pending, s.last, s'.toTokens, tokens.trans (congrArg Except.ok same.symm),
    tokens'.trans (congrArg Except.ok same'.symm), whole,
    parseTokens_append scanned.pending whole scanned.last ?_ ended, ?_⟩
  · intro t mem
    rcases List.mem_append.1 mem with mem | mem
    · exact (scanned'.pending t mem).1
    · exact List.mem_singleton.1 mem ▸ scanned'.last.1
  · rw [read, same']
    decide +kernel

end GotoBasic
