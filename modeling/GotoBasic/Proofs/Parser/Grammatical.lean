import GotoBasic.Load
import GotoBasic.Proofs.Parser.Complete

/-!
# The parser and the grammar

On scanned tokens the parser returns lines exactly if the grammar derives these lines.  Since a
parser is a function, the grammar gives a token list at most one tree.
-/

namespace GotoBasic

open Grammar

variable {s : TokenStream} {ls : List Line}

namespace Grammar

/-- The end of input stands behind the lines and nowhere else. -/
theorem program_toTokens_iff (scanned : s.Scanned) :
    Grammar.Program s.toTokens ls ↔ Lines s.pending ls := by
  constructor
  · intro derives
    generalize whole : s.toTokens = ts at derives
    cases derives with
    | intro lines final =>
      have same := List.append_inj_left' whole rfl
      rw [same]
      exact lines
  · exact fun lines => .intro lines scanned.last.2

end Grammar

theorem parseTokens_toTokens (scanned : s.Scanned) :
    parseTokens s.toTokens =
      match Parser.program s.bound s with
      | .ok ls _ => .ok ls
      | .error e _ => .error e := by
  unfold parseTokens
  cases result : Parser.program s.bound s with
  | ok ls s' => simp only [TokenStream.ofTokens_toTokens scanned, result]
  | error e s' => simp only [TokenStream.ofTokens_toTokens scanned, result]

theorem parseTokens_eq_ok_iff (scanned : s.Scanned) :
    parseTokens s.toTokens = .ok ls ↔ Grammar.Program s.toTokens ls := by
  have enough : s.pending.length < s.bound := Nat.lt_succ_self _
  rw [parseTokens_toTokens scanned, program_toTokens_iff scanned]
  constructor
  · intro accepted
    cases result : Parser.program s.bound s with
    | error e s' => rw [result] at accepted; cases accepted
    | ok ls' s' =>
      rw [result] at accepted
      cases accepted
      obtain ⟨u, read, -, derives⟩ := (Parser.program_reads s.bound scanned).of_ok result
      have ended := Parser.program_ensures_end s.bound scanned enough ls s' result
      rw [read, ended, List.append_nil]
      exact derives
  · intro derives
    have read : Parser.program s.bound s = .ok ls ⟨[], s.last⟩ :=
      Parser.program_complete derives scanned enough
    rw [read]

/-- The parser accepts exactly what the grammar derives, and returns the only tree that is
derived. -/
theorem parseTokens_accepts_grammar {source : String} {ts : List Token}
    (tokens : tokenize source = .ok ts) :
    ((∃ ls, parseTokens ts = .ok ls) ↔ ∃ ls, Grammar.Program ts ls) ∧
      ∀ ls, parseTokens ts = .ok ls →
        Grammar.Program ts ls ∧ ∀ ls', Grammar.Program ts ls' → ls' = ls := by
  obtain ⟨s, scanned, rfl⟩ := tokenize_scanned tokens
  refine ⟨exists_congr fun _ => parseTokens_eq_ok_iff scanned, fun ls accepted => ?_⟩
  refine ⟨(parseTokens_eq_ok_iff scanned).1 accepted, fun ls' derives => ?_⟩
  have accepted' := (parseTokens_eq_ok_iff scanned).2 derives
  rw [accepted] at accepted'
  cases accepted'
  rfl

theorem parse_of_tokenize {source : String} {ts : List Token} (tokens : tokenize source = .ok ts) :
    parse source = (parseTokens ts).mapError .parse := by
  unfold parse
  rw [tokens]
  rfl

theorem parse_eq_ok_iff {source : String} :
    parse source = .ok ls ↔ ∃ ts, tokenize source = .ok ts ∧ parseTokens ts = .ok ls := by
  cases tokens : tokenize source with
  | error e =>
    unfold parse
    rw [tokens]
    exact ⟨(nomatch ·), fun ⟨_, found, _⟩ => nomatch found⟩
  | ok ts =>
    rw [parse_of_tokenize tokens]
    cases parsed : parseTokens ts with
    | error e =>
      refine ⟨(nomatch ·), fun ⟨_, found, accepted⟩ => ?_⟩
      cases found
      rw [parsed] at accepted
      cases accepted
    | ok ls' =>
      constructor
      · intro same
        cases same
        exact ⟨ts, rfl, parsed⟩
      · intro ⟨_, found, accepted⟩
        cases found
        rw [parsed] at accepted
        cases accepted
        rfl

/-- A line with both tiers of operators and an `ELSE` that belongs to the second `IF`. -/
theorem parseTokens_accepts_nested :
    ∃ ls, ls = [⟨⟨1, 1⟩, some (.num 7), [
        .ifThen ⟨1, 4⟩ (.var ⟨1, 7⟩ "a")
          (.ifElse ⟨1, 14⟩
            (.binary ⟨1, 17⟩ .less
              (.binary ⟨1, 17⟩ (.arith .add)
                (.binary ⟨1, 17⟩ (.arith .sub) (.int ⟨1, 17⟩ 1) (.int ⟨1, 21⟩ 2))
                (.int ⟨1, 25⟩ 3))
              (.var ⟨1, 29⟩ "b"))
            (.nop ⟨1, 36⟩) (.goto ⟨1, 45⟩ (some (.num 7)))),
        .exit ⟨1, 54⟩]⟩] ∧
      ∃ ts, tokenize "7: IF a THEN IF 1 - 2 + 3 < b THEN NOP ELSE GOTO 7 \\ EXIT" = .ok ts ∧
        Grammar.Program ts ls ∧ ∀ ls', Grammar.Program ts ls' → ls' = ls := by
  have reads (source : String) (ls : List Line) (accepted : (parse source).toOption = some ls) :
      ∃ ts, tokenize source = .ok ts ∧
        Grammar.Program ts ls ∧ ∀ ls', Grammar.Program ts ls' → ls' = ls := by
    cases parsed : parse source with
    | error e => rw [parsed] at accepted; cases accepted
    | ok ls' =>
      rw [parsed] at accepted
      cases accepted
      obtain ⟨ts, tokens, accepted⟩ := parse_eq_ok_iff.1 parsed
      exact ⟨ts, tokens, (parseTokens_accepts_grammar tokens).2 ls accepted⟩
  exact ⟨_, rfl, reads _ _ (by decide +kernel)⟩

end GotoBasic
