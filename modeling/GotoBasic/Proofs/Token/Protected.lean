import GotoBasic.Proofs.Token.Splice

/-!
# Protected characters

A backslash protects the character behind it.  `Lexer.Visits` says at which offsets a scanner
stands that takes a backslash and the character behind it as a pair, and a character is bare if the
scanner meets it outside a pair (`Lexer.Bare`).  The searches of string rules find the first bare
quote (`Lexer.bare_of_firstBare?`) and the last quote of all (`Lexer.lastIndex?_eq_some_iff`).
-/

namespace GotoBasic.Lexer

/-! ## Scanning by pairs -/

/-- A scanner that takes every backslash together with the character behind it comes to stand at
an offset of a text. -/
inductive Visits : List Char → Nat → Prop
  | start (cs : List Char) : Visits cs 0
  | pair (d : Char) {cs : List Char} {n : Nat} (later : Visits cs n) :
      Visits ('\\' :: d :: cs) (n + 2)
  | single {c : Char} {cs : List Char} {n : Nat} (plain : c ≠ '\\') (later : Visits cs n) :
      Visits (c :: cs) (n + 1)

/-- A character stands at an offset of a text, outside a pair. -/
structure Bare (q : Char) (cs : List Char) (n : Nat) : Prop where
  visited : Visits cs n
  here : cs[n]? = some q

variable {q c d : Char} {cs x y : List Char} {n k : Nat}

theorem not_bare_nil : ¬ Bare q [] n := fun bare => nomatch bare.here

theorem bare_pair_iff (notBackslash : q ≠ '\\') :
    Bare q ('\\' :: d :: cs) n ↔ ∃ m, n = m + 2 ∧ Bare q cs m := by
  constructor
  · intro ⟨visited, here⟩
    cases visited with
    | start => exact absurd (Option.some.inj here).symm notBackslash
    | pair d later => exact ⟨_, rfl, later, here⟩
    | single plain later => exact absurd rfl plain
  · rintro ⟨m, rfl, bare⟩
    exact ⟨.pair d bare.visited, bare.here⟩

theorem bare_single_iff (plain : c ≠ '\\') :
    Bare q (c :: cs) n ↔ n = 0 ∧ c = q ∨ ∃ m, n = m + 1 ∧ Bare q cs m := by
  constructor
  · intro ⟨visited, here⟩
    cases visited with
    | start => exact .inl ⟨rfl, Option.some.inj here⟩
    | pair d later => exact absurd rfl plain
    | single plain later => exact .inr ⟨_, rfl, later, here⟩
  · rintro (⟨rfl, rfl⟩ | ⟨m, rfl, bare⟩)
    · exact ⟨.start _, rfl⟩
    · exact ⟨.single plain bare.visited, bare.here⟩

/-- A backslash at the very end is in no pair, and no quote. -/
theorem not_bare_backslash (notBackslash : q ≠ '\\') : ¬ Bare q ['\\'] n := by
  intro ⟨visited, here⟩
  cases visited with
  | start => exact notBackslash (Option.some.inj here).symm
  | single plain later => exact plain rfl

/-- The search for a bare quote fails only if there is none, and else finds the first. -/
theorem firstBare?_spec (notBackslash : q ≠ '\\') (cs : List Char) :
    match firstBare? q cs with
    | none => ∀ k, ¬ Bare q cs k
    | some n => Bare q cs n ∧ ∀ k, Bare q cs k → n ≤ k := by
  fun_induction firstBare? q cs with
  | case1 => exact fun k => not_bare_nil
  | case2 =>
    exact ⟨⟨.start _, rfl⟩, fun k _ => Nat.zero_le k⟩
  | case3 c differs =>
    intro k bare
    by_cases backslash : c = '\\'
    · subst backslash
      exact not_bare_backslash notBackslash bare
    · rcases (bare_single_iff backslash).1 bare with ⟨-, same⟩ | ⟨m, -, later⟩
      · exact differs same
      · exact not_bare_nil later
  | case4 d cs ih =>
    cases found : firstBare? q cs with
    | none =>
      rw [found] at ih
      intro k bare
      obtain ⟨m, -, later⟩ := (bare_pair_iff notBackslash).1 bare
      exact ih m later
    | some n =>
      rw [found] at ih
      refine ⟨(bare_pair_iff notBackslash).2 ⟨n, rfl, ih.1⟩, fun k bare => ?_⟩
      obtain ⟨m, rfl, later⟩ := (bare_pair_iff notBackslash).1 bare
      exact Nat.add_le_add_right (ih.2 m later) 2
  | case5 d cs plain => exact ⟨⟨.start _, rfl⟩, fun k _ => Nat.zero_le k⟩
  | case6 c d cs plain differs ih =>
    have shift (k : Nat) : Bare q (c :: d :: cs) k ↔ ∃ m, k = m + 1 ∧ Bare q (d :: cs) m := by
      rw [bare_single_iff plain]
      exact or_iff_right fun here => differs here.2
    cases found : firstBare? q (d :: cs) with
    | none =>
      rw [found] at ih
      intro k bare
      obtain ⟨m, -, later⟩ := (shift k).1 bare
      exact ih m later
    | some n =>
      rw [found] at ih
      refine ⟨(shift _).2 ⟨n, rfl, ih.1⟩, fun k bare => ?_⟩
      obtain ⟨m, rfl, later⟩ := (shift k).1 bare
      exact Nat.add_le_add_right (ih.2 m later) 1

theorem bare_of_firstBare? (notBackslash : q ≠ '\\') (found : firstBare? q cs = some n) :
    Bare q cs n ∧ ∀ k, Bare q cs k → n ≤ k := by
  have spec := firstBare?_spec notBackslash cs
  rw [found] at spec
  exact spec

theorem firstBare?_eq_none_iff (notBackslash : q ≠ '\\') :
    firstBare? q cs = none ↔ ∀ k, ¬ Bare q cs k := by
  have spec := firstBare?_spec notBackslash cs
  cases found : firstBare? q cs with
  | none =>
    rw [found] at spec
    exact iff_of_true rfl spec
  | some n =>
    rw [found] at spec
    exact iff_of_false nofun fun none => none n spec.1

/-- The first bare character is the one that the search finds. -/
theorem firstBare?_eq_some_iff (notBackslash : q ≠ '\\') :
    firstBare? q cs = some n ↔ Bare q cs n ∧ ∀ k, Bare q cs k → n ≤ k := by
  refine ⟨bare_of_firstBare? notBackslash, fun ⟨bare, first⟩ => ?_⟩
  cases found : firstBare? q cs with
  | none => exact absurd bare ((firstBare?_eq_none_iff notBackslash).1 found n)
  | some m =>
    obtain ⟨bare', first'⟩ := bare_of_firstBare? notBackslash found
    rw [Nat.le_antisymm (first' n bare) (first m bare')]

/-- The last character of a kind is the one that the search finds. -/
theorem lastIndex?_eq_some_iff :
    lastIndex? q cs = some n ↔ cs[n]? = some q ∧ ∀ k, n < k → cs[k]? ≠ some q := by
  induction cs generalizing n with
  | nil => simp [lastIndex?]
  | cons c cs ih =>
    have shift (n : Nat) : (∀ k, n + 1 < k → (c :: cs)[k]? ≠ some q) ↔
        ∀ k, n < k → cs[k]? ≠ some q := by
      constructor
      · exact fun none k above => none (k + 1) (Nat.succ_lt_succ above)
      · intro none k above
        obtain ⟨k, rfl⟩ : ∃ j, k = j + 1 := ⟨k - 1, by omega⟩
        exact none k (Nat.lt_of_succ_lt_succ above)
    have first : (∀ k, 0 < k → (c :: cs)[k]? ≠ some q) ↔ q ∉ cs := by
      rw [List.mem_iff_getElem?, not_exists]
      constructor
      · exact fun none k => none (k + 1) (Nat.succ_pos k)
      · intro none k above
        obtain ⟨k, rfl⟩ : ∃ j, k = j + 1 := ⟨k - 1, by omega⟩
        exact none k
    rw [lastIndex?]
    cases n with
    | zero =>
      rw [List.getElem?_cons_zero, first, ← lastIndex?_eq_none_iff]
      cases lastIndex? q cs with
      | some m => simp
      | none => simp
    | succ n =>
      rw [List.getElem?_cons_succ, shift, ← ih]
      cases lastIndex? q cs with
      | some m => simp
      | none => simp

/-- The search for the end of a string finds a quote before which none is bare. -/
theorem bodyLength?_spec (notBackslash : q ≠ '\\') (found : bodyLength? q cs = some n) :
    cs[n]? = some q ∧ ∀ k < n, ¬ Bare q cs k := by
  unfold bodyLength? at found
  cases bare : firstBare? q cs with
  | some m =>
    rw [bare] at found
    cases found
    obtain ⟨here, first⟩ := bare_of_firstBare? notBackslash bare
    exact ⟨here.here, fun k below other => Nat.not_lt.2 (first k other) below⟩
  | none =>
    rw [bare] at found
    exact ⟨(lastIndex?_eq_some_iff.1 found).1,
      fun k _ => (firstBare?_eq_none_iff notBackslash).1 bare k⟩

/-! ## Texts with another end -/

theorem Visits.append (visited : Visits x n) (y : List Char) : Visits (x ++ y) n := by
  induction visited with
  | start => exact .start _
  | pair d later ih => exact .pair d ih
  | single plain later ih => exact .single plain ih

/-- Where a scanner stands depends on what it has passed. -/
theorem Visits.of_append (visited : Visits (x ++ y) n) (inside : n ≤ x.length) : Visits x n := by
  generalize whole : x ++ y = z at visited
  induction visited generalizing x with
  | start => exact .start x
  | pair d later ih =>
    match x, whole with
    | a :: b :: x, whole =>
      cases whole
      exact .pair d (ih (by simpa using inside) rfl)
  | single plain later ih =>
    match x, whole with
    | a :: x, whole =>
      cases whole
      exact .single plain (ih (by simpa using inside) rfl)

theorem Bare.append (bare : Bare q x n) (y : List Char) : Bare q (x ++ y) n := by
  have inside : n < x.length := (List.getElem?_eq_some_iff.1 bare.here).1
  exact ⟨bare.visited.append y, by rw [List.getElem?_append_left inside]; exact bare.here⟩

theorem Bare.of_append (bare : Bare q (x ++ y) n) (inside : n < x.length) : Bare q x n :=
  ⟨bare.visited.of_append (Nat.le_of_lt inside),
    by rw [← List.getElem?_append_left inside]; exact bare.here⟩

/-- Between its quotes a string has no bare quote, so alone it ends where it ends in a text. -/
theorem bodyLength?_of_not_bare (notBackslash : q ≠ '\\') (closed : ∀ k, ¬ Bare q x k) :
    bodyLength? q (x ++ [q]) = some x.length := by
  have here : (x ++ [q])[x.length]? = some q := List.getElem?_concat_length
  have beyond (k : Nat) (above : x.length < k) : (x ++ [q])[k]? ≠ some q := by
    rw [List.getElem?_eq_none (by rw [List.length_append]; exact above)]
    exact nofun
  unfold bodyLength?
  cases bare : firstBare? q (x ++ [q]) with
  | some m =>
    obtain ⟨bare, -⟩ := bare_of_firstBare? notBackslash bare
    have least : x.length ≤ m := Nat.le_of_not_lt fun below => closed m (bare.of_append below)
    have most : m ≤ x.length := Nat.le_of_not_lt fun above => beyond m above bare.here
    rw [Nat.le_antisymm most least]
  | none => exact lastIndex?_eq_some_iff.2 ⟨here, beyond⟩

/-- A quote ends a string, whatever stands behind it, if all characters before it are passed and
no quote among them is bare. -/
theorem bodyLength?_of_visits (notBackslash : q ≠ '\\') (passed : Visits x x.length)
    (closed : ∀ k, ¬ Bare q x k) (y : List Char) :
    bodyLength? q (x ++ q :: y) = some x.length := by
  have found : firstBare? q (x ++ q :: y) = some x.length := by
    refine (firstBare?_eq_some_iff notBackslash).2 ⟨⟨passed.append _, by simp⟩, fun k bare => ?_⟩
    exact Nat.le_of_not_lt fun below => closed k (bare.of_append below)
  rw [bodyLength?, found]

/-! ## Pairs replaced -/

/-- The second text is the first one with every pair replaced by its second character.  A
backslash at the very end is in no pair and stays. -/
inductive Unescapes : List Char → List Char → Prop
  | nil : Unescapes [] []
  | trailing : Unescapes ['\\'] ['\\']
  | pair (d : Char) {cs v : List Char} (later : Unescapes cs v) :
      Unescapes ('\\' :: d :: cs) (d :: v)
  | single {c : Char} {cs v : List Char} (plain : c ≠ '\\') (later : Unescapes cs v) :
      Unescapes (c :: cs) (c :: v)

theorem unescapes_unescape (cs : List Char) : Unescapes cs (unescape cs) := by
  fun_induction unescape cs with
  | case1 => exact .nil
  | case2 c =>
    by_cases backslash : c = '\\'
    · rw [backslash]
      exact .trailing
    · exact .single backslash .nil
  | case3 d cs ih => exact .pair d ih
  | case4 c d cs plain ih => exact .single plain ih

theorem Unescapes.eq_unescape {v : List Char} (replaced : Unescapes cs v) : v = unescape cs := by
  induction replaced with
  | nil => rfl
  | trailing => rfl
  | pair d later ih => rw [unescape, if_pos rfl, ih]
  | @single c cs v plain later ih =>
    cases cs with
    | nil => rw [ih, unescape, unescape]
    | cons d cs => rw [unescape, if_neg plain, ih]

end GotoBasic.Lexer
