import GotoBasic.Proofs.Parser.Grammatical
import GotoBasic.Proofs.Parser.Recast
import GotoBasic.Proofs.Token.LineEnds

/-!
# Programs with line ends of two characters

Whether the line ends of a program text are made line feeds before it is loaded or not, it is the
same program, with every node at the same position (`load_unifyLineEnds`).  The carriage returns
have to belong to line ends, and none may stand in a string, since the string would keep it.
-/

namespace GotoBasic

/-- The places of line feeds are of no account. -/
theorem parseTokens_feedless (ts : List Token) :
    (parseTokens (ts.map (Token.recast .feedless))).toOption = (parseTokens ts).toOption := by
  rw [parseTokens_recast]
  cases parseTokens ts with
  | ok ls => exact congrArg some (Line.map_recast_feed ls)
  | error e => rfl

/-! ## Loading -/

variable {source : String}

/-- The text with line feeds for line ends. -/
def withFeeds (source : String) : String := String.ofList (Text.unifyLineEnds source.toList)

theorem toOption_parse (source : String) :
    (parse source).toOption = (tokenize source).toOption.bind fun ts =>
      (parseTokens ts).toOption := by
  unfold parse
  cases tokenize source with
  | error e => rfl
  | ok ts =>
    change ((parseTokens ts).mapError _).toOption = (parseTokens ts).toOption
    cases parseTokens ts <;> rfl

theorem tokenize_withFeeds (paired : Text.Paired source.toList) :
    (tokenize (withFeeds source)).toOption.map (List.map (Token.recast .feedless)) =
      (tokenize source).toOption.map (List.map (Token.recast .returnless)) := by
  unfold tokenize withFeeds
  rw [String.toList_ofList, paired.unifyLineEnds_eq]
  exact Lexer.scan_dropReturns paired Pos.start

/-- With line feeds for line ends the lines are the same, but strings have lost their carriage
returns. -/
theorem parse_withFeeds (paired : Text.Paired source.toList) :
    (parse (withFeeds source)).toOption =
      (parse source).toOption.map (List.map (Line.recast .returnless)) := by
  have same := tokenize_withFeeds paired
  rw [toOption_parse, toOption_parse]
  revert same
  cases (tokenize (withFeeds source)).toOption with
  | none =>
    cases (tokenize source).toOption with
    | none => exact fun _ => rfl
    | some ts => exact fun same => nomatch same
  | some ts' =>
    cases (tokenize source).toOption with
    | none => exact fun same => nomatch same
    | some ts =>
      intro same
      have recast := parseTokens_recast .returnless ts
      rw [← Option.some.inj same] at recast
      rw [Option.bind_some, Option.bind_some, ← parseTokens_feedless ts', recast]
      cases parseTokens ts <;> rfl

/-- Tokens without carriage returns in strings are the same without any. -/
theorem map_recast_returnless {ts : List Token}
    (clean : ∀ t ∈ ts, t.kind = .string → '\r' ∉ t.text.toList) :
    ts.map (Token.recast .returnless) = ts.map (Token.recast .feedless) := by
  refine List.map_congr_left fun t mem => ?_
  by_cases kind : t.kind = .string
  · rw [Token.recast_of_string kind, Token.recast_of_string kind]
    have same := Text.dropReturns_eq_self (clean t mem kind)
    simp [Recast.returnless, Recast.feedless, same]
  · obtain ⟨k, text, pos⟩ := t
    cases k <;> first | rfl | exact absurd rfl kind

theorem map_recast_of_clean {ts : List Token} {ls : List Line} (parsed : parseTokens ts = .ok ls)
    (clean : ∀ t ∈ ts, t.kind = .string → '\r' ∉ t.text.toList) :
    ls.map (Line.recast .returnless) = ls := by
  have recast := parseTokens_recast .returnless ts
  have same := parseTokens_feedless ts
  rw [parsed, map_recast_returnless clean] at recast
  rw [recast, parsed] at same
  exact Option.some.inj same

/-- The outcome of loading, without the reason for a failure. -/
theorem toOption_load (source : String) :
    (load source).toOption = (parse source).toOption.bind fun ls =>
      (Program.ofLines ls).toOption := by
  unfold load
  cases parse source with
  | error e => rfl
  | ok ls =>
    change ((Program.ofLines ls).mapError _).toOption = (Program.ofLines ls).toOption
    cases Program.ofLines ls <;> rfl

theorem toOption_load_withFeeds (paired : Text.Paired source.toList)
    (clean : ∀ ts, tokenize source = .ok ts → ∀ t ∈ ts, t.kind = .string → '\r' ∉ t.text.toList) :
    (load (withFeeds source)).toOption = (load source).toOption := by
  rw [toOption_load, toOption_load, parse_withFeeds paired]
  cases parsed : parse source with
  | error e => rfl
  | ok ls =>
    obtain ⟨ts, scanned, accepted⟩ := parse_eq_ok_iff.1 parsed
    change (Program.ofLines (ls.map (Line.recast .returnless))).toOption = _
    rw [map_recast_of_clean accepted (clean ts scanned)]
    rfl

/-- A program text whose carriage returns all belong to line ends, and of whose strings none denotes
a carriage return, is loaded to the program that it is loaded to with line feeds for its line
ends. -/
theorem load_unifyLineEnds (source : String)
    (paired : ∀ n < source.toList.length,
      source.toList[n]? = some '\r' → source.toList[n + 1]? = some '\n')
    (clean : ∀ ts, tokenize source = .ok ts → ∀ t ∈ ts, t.kind = .string → '\r' ∉ t.text.toList)
    (p : Program) :
    load (String.ofList (Text.unifyLineEnds source.toList)) = .ok p ↔ load source = .ok p := by
  have same := toOption_load_withFeeds (.of_getElem? paired) clean
  have ok_iff (r : Except LoadError Program) : r.toOption = some p ↔ r = .ok p := by
    cases r <;> simp [Except.toOption]
  rw [← ok_iff, ← ok_iff, ← same]
  rfl

/-- What can be checked of the strings of a text by scanning it. -/
theorem clean_of_all {source : String}
    (checked : (tokenize source).toOption.all fun ts => ts.all fun t =>
      decide (t.kind = .string → '\r' ∉ t.text.toList)) :
    ∀ ts, tokenize source = .ok ts → ∀ t ∈ ts, t.kind = .string → '\r' ∉ t.text.toList := by
  intro ts scanned t mem
  rw [scanned] at checked
  exact of_decide_eq_true (List.all_eq_true.1 checked t mem)

/-- A comment that takes its line end with it, a backslash before the carriage return of one, and an
empty line. -/
theorem load_unifyLineEnds_commented :
    ∃ p, load "X: PRINT 'a\n' // c:\\\r\n \\ NOP\r\n\r\nGOTO X" = .ok p ∧
      load (String.ofList (Text.unifyLineEnds
        "X: PRINT 'a\n' // c:\\\r\n \\ NOP\r\n\r\nGOTO X".toList)) = .ok p := by
  obtain ⟨p, loaded, -⟩ := exists_load "X: PRINT 'a\n' // c:\\\r\n \\ NOP\r\n\r\nGOTO X"
    (P := fun p => p.lines.length = 2) (by decide +kernel)
  exact ⟨p, loaded, (load_unifyLineEnds _ (by decide +kernel)
    (clean_of_all (by decide +kernel)) p).2 loaded⟩

/-- A file is run in the same way whether its line ends are made line feeds or not. -/
theorem runFile?_eq_runSource {bytes : List UInt8} (decoded : Text.decode? bytes = some source)
    (paired : Text.Paired source.toList)
    (clean : ∀ ts, tokenize source = .ok ts → ∀ t ∈ ts, t.kind = .string → '\r' ∉ t.text.toList)
    (n : Nat) (m : Machine) :
    (runFile? n bytes m).map Except.toOption = some (runSource n source m).toOption := by
  have runs (source : String) :
      (runSource n source m).toOption = (load source).toOption.map fun p => p.run n m := by
    rw [runSource_eq_map]
    cases load source <;> rfl
  unfold runFile? Text.decodeLines?
  rw [decoded, runs, ← toOption_load_withFeeds paired clean, ← runs]
  rfl

end GotoBasic
