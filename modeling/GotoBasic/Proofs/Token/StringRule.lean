import GotoBasic.Proofs.Token.Pattern
import GotoBasic.Proofs.Token.Protected
import GotoBasic.Proofs.Token.Written

/-!
# The pattern of strings

Between its quotes a string has pairs of a backslash and any character, and characters other than
the quote.  A backslash is such a character too, so a matcher that backtracks can take every pair
apart again (`Lexer.stringPattern`).  In spite of that its first match is the one that a scanner
finds in one pass: the string ends at the first bare quote, and if there is none at the last quote
of the text (`Lexer.string_pattern_match`).
-/

namespace GotoBasic.Lexer

open Pattern (Cursor)

/-! ## The pattern -/

/-- A pair of a backslash and any character or, failing that, a character other than the quote
that is remembered under 1. -/
def stringUnit : Pattern :=
  .either (.seq (.one (· == '\\')) (.one fun _ => true))
    (.seq (.absent (.again 1)) (.one fun _ => true))

/-- The pattern of strings, `(quote)((?:\\.|(?!\1).)*)\1`. -/
def stringPattern : Pattern :=
  .seq (.group 1 (.one isQuote)) (.seq (.group 2 (.many stringUnit)) (.again 1))

section Ways

variable {q : Char} {g : List (Nat × List Char)} (opened : Assoc.get? g 1 = some [q])

include opened

/-- The closing quote is the one that opened the string. -/
theorem ways_again (cs : List Char) :
    (Pattern.again 1).ways ⟨g, cs⟩ = if cs.head? = some q then [⟨g, cs.tail⟩] else [] := by
  rw [Pattern.ways, Cursor.text?, opened]
  cases cs with
  | nil => rfl
  | cons c cs =>
    by_cases same : q = c
    · simp [same]
    · simp [same, Ne.symm same]

theorem ways_stringUnit_nil : stringUnit.ways ⟨g, []⟩ = [] := by
  simp [stringUnit, Pattern.ways, Cursor.text?, opened]

theorem ways_stringUnit_pair (notBackslash : q ≠ '\\') (d : Char) (cs : List Char) :
    stringUnit.ways ⟨g, '\\' :: d :: cs⟩ = [⟨g, cs⟩, ⟨g, d :: cs⟩] := by
  simp [stringUnit, Pattern.ways, Cursor.text?, opened, notBackslash]

theorem ways_stringUnit_backslash (notBackslash : q ≠ '\\') :
    stringUnit.ways ⟨g, ['\\']⟩ = [⟨g, []⟩] := by
  simp [stringUnit, Pattern.ways, Cursor.text?, opened, notBackslash]

theorem ways_stringUnit_quote (notBackslash : q ≠ '\\') (cs : List Char) :
    stringUnit.ways ⟨g, q :: cs⟩ = [] := by
  simp [stringUnit, Pattern.ways, Cursor.text?, opened, notBackslash]

theorem ways_stringUnit_single {c : Char} (plain : c ≠ '\\') (differs : c ≠ q) (cs : List Char) :
    stringUnit.ways ⟨g, c :: cs⟩ = [⟨g, cs⟩] := by
  simp [stringUnit, Pattern.ways, Cursor.text?, opened, plain, Ne.symm differs]

end Ways

/-! ## The first match

The first match and the search for the end of a string obey the same equations. -/

section Bodies

variable {q : Char} (notBackslash : q ≠ '\\')

include notBackslash

theorem bodyLength?_quote (cs : List Char) : bodyLength? q (q :: cs) = some 0 := by
  rw [bodyLength?, firstBare?_cons notBackslash, if_neg notBackslash, if_pos rfl]

theorem bodyLength?_single {c : Char} (plain : c ≠ '\\') (differs : c ≠ q) (cs : List Char) :
    bodyLength? q (c :: cs) = (bodyLength? q cs).map (· + 1) := by
  rw [bodyLength?, bodyLength?, firstBare?_cons notBackslash, if_neg plain, if_neg differs,
    lastIndex?, if_neg differs]
  cases firstBare? q cs with
  | some n => rfl
  | none => cases lastIndex? q cs <;> rfl

theorem bodyLength?_eq_none_iff {cs : List Char} : bodyLength? q cs = none ↔ q ∉ cs := by
  rw [← lastIndex?_eq_none_iff]
  unfold bodyLength?
  cases bare : firstBare? q cs with
  | none => exact Iff.rfl
  | some n =>
    have mem : q ∈ cs := List.mem_of_getElem? (getElem?_of_firstBare? notBackslash bare)
    exact iff_of_false nofun fun none => lastIndex?_eq_none_iff.1 none mem

/-- A pair is kept together if there is a quote behind it, and taken apart if it has the last
quote of all. -/
theorem bodyLength?_pair (d : Char) (cs : List Char) :
    bodyLength? q ('\\' :: d :: cs) =
      ((bodyLength? q cs).map (· + 2)).or ((bodyLength? q (d :: cs)).map (· + 1)) := by
  cases bare : firstBare? q cs with
  | some n =>
    have whole : firstBare? q ('\\' :: d :: cs) = some (n + 2) := by
      rw [firstBare?_cons notBackslash, if_pos rfl, List.drop_succ_cons, List.drop_zero, bare]
      rfl
    simp only [bodyLength?, whole, bare, Option.map_some, Option.some_or]
  | none =>
    have whole : firstBare? q ('\\' :: d :: cs) = none := by
      rw [firstBare?_cons notBackslash, if_pos rfl, List.drop_succ_cons, List.drop_zero, bare]
      rfl
    cases last : lastIndex? q cs with
    | some m =>
      simp only [bodyLength?, whole, bare, lastIndex?, last, Option.map_some, Option.some_or]
    | none =>
      have behind : bodyLength? q cs = none := by rw [bodyLength?, bare, last]
      rw [behind]
      by_cases same : d = q
      · subst same
        have next : lastIndex? d (d :: cs) = some 0 := by rw [lastIndex?, last, if_pos rfl]
        rw [bodyLength?_quote notBackslash, bodyLength?, whole, lastIndex?, next]
        rfl
      · have absent : q ∉ d :: cs :=
          List.not_mem_cons_of_ne_of_not_mem (Ne.symm same) (lastIndex?_eq_none_iff.1 last)
        rw [(bodyLength?_eq_none_iff notBackslash).2 absent,
          (bodyLength?_eq_none_iff notBackslash).2
            (List.not_mem_cons_of_ne_of_not_mem notBackslash absent)]
        rfl

/-- Whether a closing quote follows. -/
def closedBy (q : Char) (c : Cursor) : Bool := c.rest.head? == some q

/-- Among the ways to match the text between the quotes, the first that a closing quote follows
ends where the search for the end of the string does. -/
theorem find?_ways_body {g : List (Nat × List Char)} (opened : Assoc.get? g 1 = some [q])
    (cs : List Char) :
    ((Pattern.many stringUnit).ways ⟨g, cs⟩).find? (closedBy q) =
      (bodyLength? q cs).map fun n => ⟨g, cs.drop n⟩ := by
  induction size : cs.length using Nat.strongRecOn generalizing cs with
  | ind k ih =>
    -- One unit is passed in every possible way, and then the repetition goes on or stops.
    have step {ways : List Cursor} (unit : stringUnit.ways ⟨g, cs⟩ = ways)
        (shorter : ∀ d ∈ ways, d.rest.length < cs.length) :
        ((Pattern.many stringUnit).ways ⟨g, cs⟩).find? (closedBy q) =
          (ways.findSome? fun d => ((Pattern.many stringUnit).ways d).find? (closedBy q)).or
            (if closedBy q ⟨g, cs⟩ then some ⟨g, cs⟩ else none) := by
      subst unit
      rw [Pattern.ways_many_of_shorter shorter, List.find?_append, List.find?_flatMap,
        List.find?_singleton]
    rcases cs with _ | ⟨c, cs⟩
    · rw [step (ways_stringUnit_nil opened) (by simp)]
      rfl
    rw [List.length_cons] at size
    have next := ih cs.length (by omega) cs rfl
    by_cases backslash : c = '\\'
    · subst backslash
      have here : closedBy q ⟨g, '\\' :: cs⟩ = false := by
        simpa [closedBy] using Ne.symm notBackslash
      rcases cs with _ | ⟨d, cs⟩
      · rw [step (ways_stringUnit_backslash opened notBackslash) (by simp), here,
          (bodyLength?_eq_none_iff notBackslash).2 (by simpa using notBackslash)]
        simp [next, bodyLength?, firstBare?, lastIndex?]
      · rw [List.length_cons] at size
        have behind := ih cs.length (by omega) cs rfl
        have shorter {m : Nat} (less : m ≤ cs.length + 1) : m < ('\\' :: d :: cs).length :=
          Nat.lt_succ_of_le less
        rw [step (ways_stringUnit_pair opened notBackslash d cs) (List.forall_mem_cons.2
            ⟨shorter (Nat.le_succ _), List.forall_mem_singleton.2 (shorter (Nat.le_refl _))⟩),
          here, bodyLength?_pair notBackslash]
        simp only [List.findSome?_cons, behind, next]
        cases bodyLength? q cs with
        | some n => rfl
        | none => cases bodyLength? q (d :: cs) <;> rfl
    by_cases same : c = q
    · subst same
      rw [step (ways_stringUnit_quote opened notBackslash cs) (by simp),
        bodyLength?_quote notBackslash]
      simp [closedBy]
    · have here : closedBy q ⟨g, c :: cs⟩ = false := by simpa [closedBy] using same
      rw [step (ways_stringUnit_single opened backslash same cs) (by simp), here,
        bodyLength?_single notBackslash backslash same]
      simp only [List.findSome?_cons, next]
      cases bodyLength? q cs <;> rfl

/-- The first match of the pattern of strings is what the search for the end of the string
finds. -/
theorem first?_stringPattern (quote : isQuote q) (cs : List Char) :
    stringPattern.first? (q :: cs) =
      (bodyLength? q cs).map fun n => ⟨[(1, [q]), (2, cs.take n)], cs.drop (n + 1)⟩ := by
  have opened : Assoc.get? [(1, [q])] 1 = some [q] := rfl
  have start : (Pattern.group 1 (.one isQuote)).ways ⟨[], q :: cs⟩ = [⟨[(1, [q])], cs⟩] := by
    simp [Pattern.ways, quote, Assoc.insert]
  -- Behind the text between the quotes a quote is needed, so the first way that has one counts.
  have closing (ways : List Cursor) (same : ∀ d ∈ ways, d.groups = [(1, [q])]) :
      ((ways.map fun d => (⟨Assoc.insert d.groups 2 (cs.take (cs.length - d.rest.length)),
          d.rest⟩ : Cursor)).flatMap (Pattern.again 1).ways).head? =
        (ways.find? (closedBy q)).map fun d =>
          ⟨[(1, [q]), (2, cs.take (cs.length - d.rest.length))], d.rest.tail⟩ := by
    induction ways with
    | nil => rfl
    | cons d ways ih =>
      obtain ⟨here, later⟩ := List.forall_mem_cons.1 same
      rw [List.map_cons, List.flatMap_cons, here, ways_again (q := q) rfl]
      by_cases closed : d.rest.head? = some q
      · rw [if_pos closed, List.find?_cons_of_pos (by simp [closedBy, closed])]
        rfl
      · rw [if_neg closed, List.find?_cons_of_neg (by simp [closedBy, closed])]
        exact ih later
  have kept (d : Cursor) (mem : d ∈ (Pattern.many stringUnit).ways ⟨[(1, [q])], cs⟩) :
      d.groups = [(1, [q])] := Pattern.groups_of_mem_ways rfl mem
  rw [Pattern.first?, stringPattern, Pattern.ways, start, List.flatMap_singleton, Pattern.ways,
    Pattern.ways, closing _ kept, find?_ways_body notBackslash opened]
  cases found : bodyLength? q cs with
  | none => rfl
  | some n =>
    have below := bodyLength?_lt notBackslash found
    have size : cs.length - (cs.length - n) = n := by omega
    simp [size]

end Bodies

/-! ## Where a string ends -/

/-- A scanner that starts behind the offset `p` and takes pairs together meets `q` outside a pair at
the offset `i`. -/
def BareBehind (source : List Char) (p : Nat) (q : Char) (i : Nat) : Prop :=
  p < i ∧ Bare q (source.drop (p + 1)) (i - (p + 1))

/-- The string that `q` opens at the offset `p` ends at the offset `e`: at the first bare quote,
and if there is none at the last quote of the text. -/
structure StringEnd (source : List Char) (p : Nat) (q : Char) (e : Nat) : Prop where
  behind : p < e
  quote : source[e]? = some q
  first : (∃ i, BareBehind source p q i) →
    BareBehind source p q e ∧ ∀ i, BareBehind source p q i → e ≤ i
  last : (¬ ∃ i, BareBehind source p q i) → ∀ i, e < i → source[i]? ≠ some q

/-- A match of the pattern of strings at the offset `p` is the string from there to the offset
`e`, and `value` is what the string denotes: the text between the quotes with its pairs replaced.
The rule of strings gives the same. -/
structure StringMatch (source : List Char) (p : Nat) (q : Char) (c : Cursor) (e : Nat)
    (value : List Char) : Prop where
  closed : StringEnd source p q e
  rest : c.rest = source.drop (e + 1)
  quote : c.text? 1 = some [q]
  body : c.text? 2 = some (source.extract (p + 1) e)
  denotes : Unescapes (source.extract (p + 1) e) value
  lexeme : lexeme? q (source.drop (p + 1)) =
    some ⟨some (.string, String.ofList value), e + 1 - p⟩

variable {source : List Char} {p : Nat} {q : Char}

theorem bareBehind_add_iff {k : Nat} :
    BareBehind source p q (p + 1 + k) ↔ Bare q (source.drop (p + 1)) k := by
  rw [BareBehind, Nat.add_sub_cancel_left]
  exact and_iff_right (by omega)

theorem exists_bareBehind_iff :
    (∃ i, BareBehind source p q i) ↔ ∃ k, Bare q (source.drop (p + 1)) k := by
  constructor
  · exact fun ⟨i, _, bare⟩ => ⟨_, bare⟩
  · exact fun ⟨k, bare⟩ => ⟨_, bareBehind_add_iff.2 bare⟩

theorem mem_drop_iff : q ∈ source.drop (p + 1) ↔ ∃ i, p < i ∧ source[i]? = some q := by
  rw [List.mem_iff_getElem?]
  constructor
  · intro ⟨k, found⟩
    rw [List.getElem?_drop] at found
    exact ⟨p + 1 + k, by omega, found⟩
  · intro ⟨i, above, found⟩
    refine ⟨i - (p + 1), ?_⟩
    rw [List.getElem?_drop, Nat.add_sub_cancel' above, found]

/-- The search for the end of a string finds it. -/
theorem stringEnd_of_bodyLength? (notBackslash : q ≠ '\\') {n : Nat}
    (found : bodyLength? q (source.drop (p + 1)) = some n) :
    StringEnd source p q (p + 1 + n) := by
  unfold bodyLength? at found
  cases bare : firstBare? q (source.drop (p + 1)) with
  | some m =>
    rw [bare] at found
    cases found
    obtain ⟨here, first⟩ := bare_of_firstBare? notBackslash bare
    refine ⟨by omega, by rw [← List.getElem?_drop]; exact here.here, fun _ => ?_, fun none => ?_⟩
    · refine ⟨bareBehind_add_iff.2 here, fun i ⟨above, other⟩ => ?_⟩
      have least := first _ other
      omega
    · exact absurd (exists_bareBehind_iff.2 ⟨n, here⟩) none
  | none =>
    rw [bare] at found
    have none := (firstBare?_eq_none_iff notBackslash).1 bare
    obtain ⟨here, last⟩ := lastIndex?_eq_some_iff.1 found
    refine ⟨by omega, by rw [← List.getElem?_drop]; exact here, fun some => ?_, fun _ i above => ?_⟩
    · obtain ⟨k, other⟩ := exists_bareBehind_iff.1 some
      exact absurd other (none k)
    · have behind := last (i - (p + 1)) (by omega)
      rw [List.getElem?_drop, Nat.add_sub_cancel' (by omega)] at behind
      exact behind

/-- The pattern of strings matches at a quote if and only if the quote occurs again, and its first
match is what a scanner finds in one pass. -/
theorem string_pattern_match (here : source[p]? = some q) (quote : isQuote q) :
    ((∃ c, stringPattern.first? (source.drop p) = some c) ↔ ∃ i, p < i ∧ source[i]? = some q) ∧
      (∀ c, stringPattern.first? (source.drop p) = some c →
        ∃ e value, StringMatch source p q c e value) ∧
      (stringPattern.first? (source.drop p) = none →
        lexeme? q (source.drop (p + 1)) = none) := by
  have notBackslash : q ≠ '\\' := by
    rintro rfl
    cases quote
  have front : source.drop p = q :: source.drop (p + 1) := by
    obtain ⟨below, same⟩ := List.getElem?_eq_some_iff.1 here
    rw [List.drop_eq_getElem_cons below, same]
  rw [front, first?_stringPattern notBackslash quote, ← mem_drop_iff]
  cases found : bodyLength? q (source.drop (p + 1)) with
  | none =>
    have absent := (bodyLength?_eq_none_iff notBackslash).1 found
    refine ⟨iff_of_false (fun ⟨c, same⟩ => ?_) absent, fun c same => ?_, fun _ => ?_⟩
    · cases same
    · cases same
    · rw [lexeme?_of_isQuote quote, string?, found]
      rfl
  | some n =>
    have present : q ∈ source.drop (p + 1) := by
      by_contra absent
      rw [(bodyLength?_eq_none_iff notBackslash).2 absent] at found
      cases found
    refine ⟨iff_of_true ⟨_, rfl⟩ present, fun c same => ?_, fun none => ?_⟩
    · cases same
      have between : source.extract (p + 1) (p + 1 + n) = (source.drop (p + 1)).take n := by
        rw [List.extract_eq_take_drop, Nat.add_sub_cancel_left]
      have size : p + 1 + n + 1 - p = n + 2 := by omega
      refine ⟨p + 1 + n, unescape ((source.drop (p + 1)).take n),
        stringEnd_of_bodyLength? notBackslash found, List.drop_drop, rfl, ?_, ?_, ?_⟩
      · rw [between]
        rfl
      · rw [between]
        exact unescapes_unescape _
      · rw [lexeme?_of_isQuote quote, string?, found, size]
        rfl
    · cases none

/-- A string that is closed by a protected quote: its backslash belongs to the text. -/
theorem string_pattern_match_protected :
    "x\"a\\\"b".toList[1]? = some (Char.ofNat 0x22) ∧ isQuote (Char.ofNat 0x22) ∧
      ∃ c, c = ⟨[(1, [Char.ofNat 0x22]), (2, ['a', '\\'])], ['b']⟩ ∧
        stringPattern.first? ("x\"a\\\"b".toList.drop 1) = some c ∧
        ∃ e value, StringMatch "x\"a\\\"b".toList 1 (Char.ofNat 0x22) c e value := by
  have here : "x\"a\\\"b".toList[1]? = some (Char.ofNat 0x22) := by decide
  have quote : isQuote (Char.ofNat 0x22) := by decide
  have matched : stringPattern.first? ("x\"a\\\"b".toList.drop 1) =
      some ⟨[(1, [Char.ofNat 0x22]), (2, ['a', '\\'])], ['b']⟩ := by decide
  exact ⟨here, quote, _, rfl, matched, (string_pattern_match here quote).2.1 _ matched⟩

end GotoBasic.Lexer
