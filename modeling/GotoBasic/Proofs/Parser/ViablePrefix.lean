import GotoBasic.Proofs.Parser.Grammatical
import GotoBasic.Proofs.Parser.Local
import GotoBasic.Proofs.Token.Position
import GotoBasic.Proofs.Token.Layout

/-!
# Errors stand at the first impossible token

The token that a parse error is about is the first one that fits no program.  The tokens before
it start a program, since the parser can complete what it has passed (`Parser.Reads`), and with
it they start none, since the parser looks no further than at this token (`Parser.Local`).
-/

namespace GotoBasic

variable {s : TokenStream} {u r : List Token}

/-! ## Tokens and streams -/

theorem TokenStream.getElem?_toTokens (read : s.pending = u ++ r) :
    s.toTokens[u.length]? = some (r.headD s.last) := by
  rw [toTokens, read, List.append_assoc, List.getElem?_append_right (Nat.le_refl _), Nat.sub_self]
  cases r with
  | nil => rfl
  | cons t r => rfl

theorem TokenStream.take_toTokens (read : s.pending = u ++ r) : s.toTokens.take u.length = u := by
  rw [toTokens, read, List.append_assoc, List.take_left]

theorem TokenStream.take_succ_toTokens (read : s.pending = u ++ r) :
    s.toTokens.take (u.length + 1) = u ++ [r.headD s.last] := by
  rw [List.take_add_one, getElem?_toTokens read, take_toTokens read]
  rfl

/-- A stream shows a token list up to the first end of input. -/
theorem TokenStream.ofTokens_append_cons (t : Token) (us : List Token)
    (inside : ∀ t ∈ u, t.isEof = false) :
    ∃ v l, ofTokens (u ++ t :: us) = ⟨u ++ v, l⟩ ∧ v.headD l = t := by
  have front : (u ++ t :: us).takeWhile (fun t => !t.isEof) =
      u ++ (t :: us).takeWhile fun t => !t.isEof :=
    List.takeWhile_append_of_pos fun t mem => by simp [inside t mem]
  have found : (u ++ t :: us).find? Token.isEof = (t :: us).find? Token.isEof := by
    rw [List.find?_append, List.find?_eq_none.2 fun t mem => by simp [inside t mem]]
    rfl
  unfold ofTokens
  rw [front, found]
  refine ⟨_, _, rfl, ?_⟩
  cases final : t.isEof with
  | true => simp [final]
  | false => simp [final]

/-! ## Errors -/

/-- An error arises from the tokens up to the one it is about, whatever stands behind them. -/
theorem parseTokens_error_of_append {e : ParseError} (scanned : s.Scanned)
    (error : parseTokens s.toTokens = .error e) :
    ∃ u r, s.pending = u ++ r ∧ e.token = r.headD s.last ∧
      ∀ us, parseTokens (u ++ e.token :: us) = .error e := by
  rw [parseTokens_toTokens scanned] at error
  cases result : Parser.program s.bound s with
  | ok ls s' => rw [result] at error; cases error
  | error e' s' =>
    rw [result] at error
    cases error
    obtain ⟨u, r, read, found, same⟩ :=
      (Parser.program_local scanned).error (Nat.le_refl _) result
    have inside (t : Token) (mem : t ∈ u) : t.isEof = false := by
      have pending : t ∈ s.pending := by
        rw [read]
        exact List.mem_append_left r mem
      simpa [Token.isEof] using (scanned.pending t pending).2
    refine ⟨u, r, read, found, fun us => ?_⟩
    obtain ⟨v, l, stream, head⟩ := TokenStream.ofTokens_append_cons e.token us inside
    obtain ⟨t, refused⟩ := same (TokenStream.bound ⟨u ++ v, l⟩) v l (Nat.le_refl _) head
    unfold parseTokens
    rw [stream]
    dsimp only
    rw [refused]

/-- What stands before the token of an error can be completed to the lines of a program. -/
theorem parseTokens_error_completable {e : ParseError} (scanned : s.Scanned)
    (error : parseTokens s.toTokens = .error e) :
    ∃ u r, s.pending = u ++ r ∧ e.token = r.headD s.last ∧
      Grammar.Completable Grammar.Lines u := by
  rw [parseTokens_toTokens scanned] at error
  cases result : Parser.program s.bound s with
  | ok ls s' => rw [result] at error; cases error
  | error e' s' =>
    rw [result] at error
    cases error
    exact (Parser.program_reads s.bound scanned).of_error result

/-- Tokens of a text that can be completed to the lines of a program start a program text. -/
theorem exists_source_of_completable {source : String} (tokens : tokenize source = .ok s.toTokens)
    (read : s.pending = u ++ r) (completable : Grammar.Completable Grammar.Lines u) :
    ∃ source' ts ls, tokenize source' = .ok ts ∧ u <+: ts ∧ parseTokens ts = .ok ls := by
  obtain ⟨w, plain, derives⟩ := completable
  have parts : Lexer.scan 0 Pos.start source.toList = .ok (u ++ (r ++ [s.last])) := by
    rw [← List.append_assoc, ← read]
    exact tokens
  obtain ⟨a, b, -, continues⟩ := Lexer.scan_splice parts (by simp)
  obtain ⟨ws, last, written, spelled⟩ := Lexer.scan_written plain (Pos.start.afterAll a)
  have tokens' : tokenize (String.ofList (a ++ Lexer.written w)) =
      .ok (u ++ (ws ++ [⟨.eof, "", last⟩])) := by
    rw [tokenize, String.toList_ofList, continues _ (Lexer.written_spaced plain), written]
    rfl
  obtain ⟨ls, lines⟩ := derives ws spelled
  refine ⟨_, _, ls, tokens', List.prefix_append u _, ?_⟩
  obtain ⟨s', scanned', same⟩ := tokenize_scanned tokens'
  rw [← same, parseTokens_eq_ok_iff scanned', same, ← List.append_assoc]
  exact .intro lines rfl

/-- A parse error is reported at the first token that makes the tokens up to it the start of no
program; the tokens before it are the start of some program text. -/
theorem parse_error_at_first_impossible {source : String} {ts : List Token} {e : ParseError}
    (tokens : tokenize source = .ok ts) (error : parse source = .error (.parse e)) :
    ∃ k, (∀ j, ts[j]?.map Token.pos = some e.pos ↔ j = k) ∧
      (∃ source' ts' ls, tokenize source' = .ok ts' ∧ ts.take k <+: ts' ∧
        parseTokens ts' = .ok ls) ∧
      ∀ ts' ls, ts.take (k + 1) <+: ts' → parseTokens ts' ≠ .ok ls := by
  have refused : parseTokens ts = .error e := by
    rw [parse_of_tokenize tokens] at error
    cases parsed : parseTokens ts with
    | ok ls => rw [parsed] at error; cases error
    | error e' => rw [parsed] at error; cases error; rfl
  have distinct := tokenize_nodup_pos tokens
  obtain ⟨s, scanned, rfl⟩ := tokenize_scanned tokens
  obtain ⟨u, r, read, found, dead⟩ := parseTokens_error_of_append scanned refused
  obtain ⟨u', r', read', found', completable⟩ := parseTokens_error_completable scanned refused
  have here : (s.toTokens.map Token.pos)[u.length]? = some e.pos := by
    rw [List.getElem?_map, TokenStream.getElem?_toTokens read, ← found, e.pos_eq_token_pos]
    rfl
  have only (j : Nat) (there : (s.toTokens.map Token.pos)[j]? = some e.pos) : j = u.length := by
    obtain ⟨below, -⟩ := List.getElem?_eq_some_iff.1 there
    exact (List.getElem?_inj below distinct).1 (there.trans here.symm)
  have same : u' = u := by
    have index : u'.length = u.length := by
      refine only u'.length ?_
      rw [List.getElem?_map, TokenStream.getElem?_toTokens read', ← found', e.pos_eq_token_pos]
      rfl
    exact List.append_inj_left (read'.symm.trans read) index
  subst same
  refine ⟨u'.length, fun j => ?_, ?_, fun ts' ls starts accepted => ?_⟩
  · rw [← List.getElem?_map]
    exact ⟨only j, fun same => same ▸ here⟩
  · rw [TokenStream.take_toTokens read]
    exact exists_source_of_completable tokens read completable
  · rw [TokenStream.take_succ_toTokens read, ← found] at starts
    obtain ⟨us, rfl⟩ := starts
    rw [List.append_assoc, List.singleton_append, dead us] at accepted
    cases accepted

/-- A line that ends in the middle of an expression: its line feed is the first token that does
not fit. -/
theorem parse_error_at_line_feed :
    ∃ ts, tokenize "x: IF a THEN PRINT (2 +\nNOP" = .ok ts ∧
      parse "x: IF a THEN PRINT (2 +\nNOP" =
        .error (.parse (.expected .expression ⟨.newline, "\n", ⟨1, 24⟩⟩)) ∧
      ∃ k, (∀ j, ts[j]?.map Token.pos = some ⟨1, 24⟩ ↔ j = k) ∧
        (∃ source' ts' ls, tokenize source' = .ok ts' ∧ ts.take k <+: ts' ∧
          parseTokens ts' = .ok ls) ∧
        ∀ ts' ls, ts.take (k + 1) <+: ts' → parseTokens ts' ≠ .ok ls := by
  have error : parse "x: IF a THEN PRINT (2 +\nNOP" =
      .error (.parse (.expected .expression ⟨.newline, "\n", ⟨1, 24⟩⟩)) := by
    decide +kernel
  cases tokens : tokenize "x: IF a THEN PRINT (2 +\nNOP" with
  | error e => rw [parse, tokens] at error; cases error
  | ok ts => exact ⟨ts, rfl, error, parse_error_at_first_impossible tokens error⟩

end GotoBasic
