import GotoBasic.Proofs.Decimal.Digits
import GotoBasic.Proofs.Parser.Grammatical
import GotoBasic.Proofs.Run.Simulation
import GotoBasic.Proofs.Token.Layout

/-!
# Integers as program text

The text that an integer is displayed with is an expression, and its value is the integer.  The
digits that a program prints are displayed without the zeros in front, or there are too many of them
and the program is none (`integer_text_round_trip`).
-/

namespace GotoBasic

open Decimal (isDigit digitLimit width trimZeros)

/-! ## Tokens -/

section Numeral

variable {d : String} (nonempty : d.toList ≠ []) (digits : ∀ c ∈ d.toList, isDigit c)

include nonempty digits

theorem Lexer.writes_numeral : Writes (.int, d) d.toList :=
  .plain ⟨⟨nonempty, digits⟩, by simp, by simp⟩

theorem Lexer.scan_numeral (pos : Pos) :
    scan 0 pos d.toList = .ok [⟨.int, d, pos⟩, ⟨.eof, "", pos.afterAll d.toList⟩] := by
  have scanned := scan_append_of_writes (writes_numeral nonempty digits) (y := []) nofun pos
  rw [List.append_nil] at scanned
  rw [scanned]
  rfl

theorem Lexer.scan_negative_numeral (pos : Pos) :
    scan 0 pos ('-' :: d.toList) =
      .ok [⟨.op, "-", pos⟩, ⟨.int, d, pos.after '-'⟩,
        ⟨.eof, "", (pos.after '-').afterAll d.toList⟩] := by
  have found : lexeme? '-' d.toList = some (.spelled .op ['-']) := by
    cases shape : d.toList with
    | nil => exact absurd shape nonempty
    | cons c cs => rfl
  rw [scan_cons pos found]
  change (scan 0 (pos.after '-') d.toList).map ([⟨.op, "-", pos⟩] ++ ·) = _
  rw [scan_numeral nonempty digits]
  rfl

theorem tokenize_print_numeral :
    tokenize ("PRINT " ++ d) =
      .ok [⟨.keyword .printWord, "PRINT", ⟨1, 1⟩⟩, ⟨.int, d, ⟨1, 7⟩⟩,
        ⟨.eof, "", Pos.afterAll ⟨1, 7⟩ d.toList⟩] := by
  have word : Lexer.Writes (.keyword .printWord, "PRINT") "PRINT".toList :=
    .plain (plain_word .printWord)
  have apart : Lexer.Apart (' ' :: d.toList) := by
    rintro c ⟨⟩
    exact .inl rfl
  have blank : Lexer.scan 0 ⟨1, 6⟩ (' ' :: d.toList) = Lexer.scan 0 ⟨1, 7⟩ d.toList := rfl
  unfold tokenize
  rw [String.toList_append]
  change Lexer.scan 0 ⟨1, 1⟩ ("PRINT".toList ++ ' ' :: d.toList) = _
  rw [Lexer.scan_append_of_writes word apart]
  change (Lexer.scan 0 ⟨1, 6⟩ (' ' :: d.toList)).map _ = _
  rw [blank, Lexer.scan_numeral nonempty digits]
  rfl

end Numeral

/-! ## Expressions -/

/-- The text is the expression `e`: the parser of expressions takes all tokens of the text. -/
def IsExpression (source : String) (e : Expr) : Prop :=
  ∃ ts last, tokenize source = .ok ts ∧
    Parser.expr (TokenStream.ofTokens ts).bound (TokenStream.ofTokens ts) = .ok e ⟨[], last⟩

theorem isExpression_of_derives {source : String} {u : List Token} {l : Token} {e : Expr}
    (tokens : tokenize source = .ok (u ++ [l])) (derives : Grammar.Expression u e) :
    IsExpression source e := by
  rcases tokenize_scanned tokens with ⟨⟨pending, last⟩, scanned, shape⟩
  have inside : pending = u := List.append_inj_left' shape rfl
  subst inside
  have enough : (pending ++ []).length < TokenStream.bound ⟨pending, last⟩ := by
    rw [List.append_nil]
    exact Nat.lt_succ_self _
  have follow : Parser.NoBinary last := by
    apply Parser.noBinary_of_kind
    rw [scanned.last.2]
    decide
  have read := Parser.expr_complete (r := []) (l := last) derives
    (by rw [List.append_nil]; exact scanned) enough follow
  rw [List.append_nil] at read
  refine ⟨_, last, tokens, ?_⟩
  rw [← shape, TokenStream.ofTokens_toTokens scanned]
  exact read

/-- A literal, or a minus sign on a literal. -/
inductive Expr.IsSignedLiteral : Expr → Prop
  | literal (pos : Pos) (n : Int) : IsSignedLiteral (.int pos n)
  | negative (pos pos' : Pos) (n : Int) : IsSignedLiteral (.unary pos .neg (.int pos' n))

/-- The integer that the digits of a text denote. -/
def numeralValue (d : String) : Int := (Nat.ofDigitChars 10 d.toList 0 : Nat)

section Numeral

variable {d : String} (nonempty : d.toList ≠ []) (digits : ∀ c ∈ d.toList, isDigit c)
  (short : d.length ≤ digitLimit)

include short in
theorem unary_numeral (pos : Pos) :
    Grammar.Unary [⟨.int, d, pos⟩] (.int pos (numeralValue d)) :=
  .primary (.int (t := ⟨.int, d, pos⟩) ⟨rfl, short, rfl⟩)

include nonempty digits short

theorem isExpression_numeral : IsExpression d (.int ⟨1, 1⟩ (numeralValue d)) := by
  have tokens : tokenize d = .ok ([⟨.int, d, ⟨1, 1⟩⟩] ++ [_]) :=
    Lexer.scan_numeral nonempty digits ⟨1, 1⟩
  exact isExpression_of_derives tokens (.of_unary (unary_numeral short _))

theorem isExpression_negative_numeral :
    IsExpression (String.ofList ('-' :: d.toList))
      (.unary ⟨1, 1⟩ .neg (.int ⟨1, 2⟩ (numeralValue d))) := by
  have tokens : ∃ last, tokenize (String.ofList ('-' :: d.toList)) =
      .ok ([⟨.op, "-", ⟨1, 1⟩⟩, ⟨.int, d, ⟨1, 2⟩⟩] ++ [last]) := by
    unfold tokenize
    rw [String.toList_ofList]
    exact ⟨_, Lexer.scan_negative_numeral nonempty digits ⟨1, 1⟩⟩
  rcases tokens with ⟨last, tokens⟩
  have minus : Grammar.Operator UnaryOp.neg.symbol ⟨.op, "-", ⟨1, 1⟩⟩ := ⟨rfl, rfl⟩
  exact isExpression_of_derives tokens (.of_unary (.apply rfl minus (unary_numeral short _)))

end Numeral

/-- The text that an integer is displayed with is read as this integer. -/
theorem exists_display_isExpression {n : Int} (short : width n ≤ digitLimit) :
    ∃ text e, Value.display (.int n) = .ok text ∧ IsExpression text e ∧ e.IsSignedLiteral ∧
      ∀ env, e.eval env = .ok (.int n) := by
  generalize magnitude : String.ofList (Nat.toDigits 10 n.natAbs) = d
  have shape : d.toList = Nat.toDigits 10 n.natAbs := by
    rw [← magnitude, String.toList_ofList]
  have nonempty : d.toList ≠ [] := by
    rw [shape]
    exact Nat.toDigits_ne_nil
  have digits : ∀ c ∈ d.toList, isDigit c := by
    rw [shape]
    exact Decimal.isDigit_of_mem_toDigits
  have short' : d.length ≤ digitLimit := by
    rw [← String.length_toList, shape]
    exact short
  have value : numeralValue d = n.natAbs := by
    rw [numeralValue, shape, Nat.ofDigitChars_ten_toDigits]
  rw [Value.display_int, if_pos ((Decimal.isWritable_iff n).2 short), Decimal.digits, ← shape]
  by_cases negative : n < 0
  · refine ⟨_, _, rfl, ?_, .negative ⟨1, 1⟩ ⟨1, 2⟩ (numeralValue d), fun env => ?_⟩
    · rw [if_pos negative]
      exact isExpression_negative_numeral nonempty digits short'
    · change Except.ok (Value.int (-numeralValue d)) = _
      rw [value, Int.ofNat_natAbs_of_nonpos (Int.le_of_lt negative), Int.neg_neg]
  · refine ⟨_, _, rfl, ?_, .literal ⟨1, 1⟩ (numeralValue d), fun env => ?_⟩
    · rw [if_neg negative, String.ofList_toList]
      exact isExpression_numeral nonempty digits short'
    · change Except.ok (Value.int (numeralValue d)) = _
      rw [value, Int.natAbs_of_nonneg (Int.not_lt.1 negative)]

/-! ## Programs -/

namespace Parser

variable {t w l : Token} {n : Nat}

/-- An integer that cannot be read stops all parsers that begin with it. -/
theorem expr_apply_of_unreadable (kind : t.kind = .int)
    (unreadable : Decimal.integer? t.text.toList = none) (r : List Token) :
    expr (n + 1) ⟨t :: r, l⟩ = .error (.integerTooLong t) ⟨r, l⟩ := by
  have refused : integer t ⟨r, l⟩ = .error (.integerTooLong t) ⟨r, l⟩ := by
    rw [integer, unreadable]
    rfl
  have literal : primary (exprOf n (unary n)) ⟨t :: r, l⟩ = .error (.integerTooLong t) ⟨r, l⟩ := by
    unfold primary
    rw [current_bind_apply, TokenStream.current_cons, kind]
    exact advance_bind_apply.trans (bind_apply_of_error refused)
  have operand : unary (n + 1) ⟨t :: r, l⟩ = .error (.integerTooLong t) ⟨r, l⟩ := by
    have operator : t.kind ≠ .op := by
      rw [kind]
      decide
    unfold unary
    rw [current_bind_apply, TokenStream.current_cons, unaryOp?_eq_none_of_kind operator]
    exact literal
  exact bind_apply_of_error (bind_apply_of_error operand)

theorem program_apply_of_unprintable {e : ParseError} {s : TokenStream} {r : List Token}
    (word : Grammar.Word .printWord w) (text : w.text = "PRINT")
    (failed : expr (n + 1) ⟨r, l⟩ = .error e s) :
    program (n + 1) ⟨w :: r, l⟩ = .error e s := by
  have kind : w.kind = .keyword .printWord := word
  have found : w.isSymbol "PRINT" := by
    simp [Token.isSymbol, kind, text]
  have statement : stmt (n + 1) ⟨w :: r, l⟩ = .error e s := by
    unfold stmt
    rw [current_bind_apply, TokenStream.current_cons, kind]
    exact (bind_apply_of_ok (expect_cons found)).trans (bind_apply_of_error failed)
  have unlabelled : labelDecl ⟨w :: r, l⟩ = .ok none ⟨w :: r, l⟩ := by
    unfold labelDecl
    rw [current_bind_apply, TokenStream.current_cons, kind]
    rfl
  have line : line (n + 1) ⟨w :: r, l⟩ = .error e s := by
    unfold line
    rw [current_bind_apply]
    exact (bind_apply_of_ok unlabelled).trans (bind_apply_of_error statement)
  have skipped : skipNewlines ⟨w :: r, l⟩ = .ok () ⟨w :: r, l⟩ := by
    change EStateM.Result.ok () (TokenStream.mk ((w :: r).dropWhile _) l) = _
    rw [List.dropWhile_cons_of_neg (by simp [kind])]
  refine (bind_apply_of_ok skipped).trans ?_
  rw [current_bind_apply, TokenStream.current_cons, kind]
  exact bind_apply_of_error line

end Parser

/-- The program that prints an integer. -/
def printing (n : Int) : Program := ⟨[⟨⟨1, 1⟩, none, [.print ⟨1, 1⟩ (.int ⟨1, 7⟩ n)]⟩]⟩

theorem action_print {env : Env} {e : Expr} {v : Value} {text : String}
    (value : e.eval env = .ok v) (shown : v.display = .ok text) (p : Program) (pos : Pos) :
    (Stmt.print pos e).action p env = .ok (.write text) := by
  change (e.eval env >>= fun v => Cause.locate pos v.display >>= _) = _
  rw [value]
  change (Cause.locate pos v.display >>= _) = _
  rw [shown]
  rfl

/-- An integer that has a text is printed, and the program ends. -/
theorem run_printing {n : Int} {text : String} (shown : Value.display (.int n) = .ok text)
    (m : Machine) (k : Nat) :
    ∃ m', (printing n).run (k + 2) m = .done m' ∧ m'.output = m.output ++ [text ++ "\n"] := by
  let started := { m with ip := none }.record (.lineStarted 1 none)
  let statement := Stmt.print ⟨1, 1⟩ (.int ⟨1, 7⟩ n)
  have entered : (printing n).enter (printing n).entryIndex m =
      .next ⟨1, [statement], started⟩ := rfl
  have decides : statement.action (printing n) started.env = .ok (.write text) :=
    action_print rfl shown (printing n) ⟨1, 1⟩
  have ended : (printing n).step ⟨1, [], started.write text⟩ = .done (started.write text) := rfl
  refine ⟨started.write text, ?_, ?_⟩
  · unfold Program.run
    rw [entered, Program.runFrom, Program.step_of_action decides]
    change (printing n).runFrom (k + 1) (.next ⟨1, [], started.write text⟩) = _
    rw [Program.runFrom, ended, Program.runFrom]
  · unfold Machine.write started
    rw [Machine.output_record, Machine.output_record]
    exact congrArg (· ++ [text ++ "\n"]) (List.append_nil m.output)

section Numeral

variable {d : String} (nonempty : d.toList ≠ []) (digits : ∀ c ∈ d.toList, isDigit c)

include nonempty digits

theorem load_print_numeral (short : d.length ≤ digitLimit) :
    load ("PRINT " ++ d) = .ok (printing (numeralValue d)) := by
  have tokens := tokenize_print_numeral nonempty digits
  have derives (l : Token) (final : l.kind = .eof) :
      Grammar.Program
        [⟨.keyword .printWord, "PRINT", ⟨1, 1⟩⟩, ⟨.int, d, ⟨1, 7⟩⟩, l]
        (printing (numeralValue d)).lines := by
    refine Grammar.Program.intro (u := [_, _]) (.last ?_) final
    refine .intro (u := []) (v := [_, _]) (w := []) rfl .none ?_ .nil
    exact .print rfl (.of_unary (unary_numeral short _))
  have parsed : parse ("PRINT " ++ d) = .ok (printing (numeralValue d)).lines := by
    rcases tokenize_scanned tokens with ⟨s, scanned, shape⟩
    have accepted := (parseTokens_eq_ok_iff scanned).2 (shape ▸ derives _ rfl)
    rw [parse_of_tokenize tokens, ← shape, accepted]
    rfl
  unfold load
  rw [parsed]
  rfl

theorem load_print_long_numeral (long : digitLimit < d.length) :
    load ("PRINT " ++ d) = .error (.parse (.integerTooLong ⟨.int, d, ⟨1, 7⟩⟩)) := by
  have tokens := tokenize_print_numeral nonempty digits
  have unreadable : Decimal.integer? d.toList = none := by
    rw [Decimal.integer?_eq_of_digits nonempty digits, if_neg]
    rw [String.length_toList]
    exact Nat.not_le.2 long
  rcases tokenize_scanned tokens with ⟨⟨pending, last⟩, scanned, shape⟩
  have whole : pending ++ [last] =
      [⟨.keyword .printWord, "PRINT", ⟨1, 1⟩⟩, ⟨.int, d, ⟨1, 7⟩⟩] ++ [_] := shape
  have inside := List.append_inj_left' whole rfl
  subst inside
  have operand := Parser.expr_apply_of_unreadable (n := 2) (l := last) (t := ⟨.int, d, ⟨1, 7⟩⟩)
    rfl unreadable []
  have failed := Parser.program_apply_of_unprintable
    (w := ⟨.keyword .printWord, "PRINT", ⟨1, 1⟩⟩) rfl rfl operand
  unfold load
  rw [parse_of_tokenize tokens, ← shape, parseTokens_toTokens scanned, TokenStream.bound,
    List.length_cons, List.length_cons, List.length_nil, failed]
  rfl

end Numeral

/-! ## Integers and their texts -/

/-- An integer of at most `Decimal.digitLimit` digits, and no other one, is displayed.  Its text is
an expression, a literal that may have a minus sign, and the value of the expression is the integer.
A program that prints a literal displays its digits without the zeros in front, but if they are more
than `Decimal.digitLimit`, zeros included, then there is no program. -/
theorem integer_text_round_trip (n : Int) {d : String} (nonempty : d.toList ≠ [])
    (digits : ∀ c ∈ d.toList, isDigit c) :
    (width n ≤ digitLimit →
        ∃ text e, Value.display (.int n) = .ok text ∧ IsExpression text e ∧ e.IsSignedLiteral ∧
          ∀ env, e.eval env = .ok (.int n)) ∧
      ((∃ c, Value.display (.int n) = .error c) ↔ digitLimit < width n) ∧
      (d.length ≤ digitLimit → ∀ m k, ∃ m',
        runSource (k + 2) ("PRINT " ++ d) m = .ok (.done m') ∧
          m'.output = m.output ++ [String.ofList (trimZeros d.toList) ++ "\n"]) ∧
      (digitLimit < d.length → ∃ e, load ("PRINT " ++ d) = .error (.parse e) ∧
        e.cause = "integer literal too long" ∧ e.pos = ⟨1, 7⟩) := by
  refine ⟨exists_display_isExpression, Value.display_int_eq_error_iff n, fun short m k => ?_,
    fun long => ?_⟩
  · have length : d.toList.length ≤ digitLimit := by
      rw [String.length_toList]
      exact short
    have shown : Value.display (.int (numeralValue d)) = .ok (String.ofList (trimZeros d.toList)) :=
      Decimal.display_ofDigitChars digits length
    rcases run_printing shown m k with ⟨m', ran, output⟩
    refine ⟨m', ?_, output⟩
    unfold runSource
    rw [load_print_numeral nonempty digits short]
    exact congrArg Except.ok ran
  · exact ⟨_, load_print_long_numeral nonempty digits long, rfl, rfl⟩

/-- Zeros in front are not displayed, but they count. -/
theorem integer_text_leading_zeros :
    (∀ m k, ∃ m', runSource (k + 2) "PRINT 007" m = .ok (.done m') ∧
        m'.output = m.output ++ ["7\n"]) ∧
      ∃ e, load ("PRINT " ++ String.ofList (List.replicate 4301 '0')) = .error (.parse e) ∧
        e.cause = "integer literal too long" ∧ e.pos = ⟨1, 7⟩ := by
  constructor
  · have digits : "007".toList.all isDigit = true := by decide
    exact (integer_text_round_trip 7 (by decide) (List.all_eq_true.1 digits)).2.2.1 (by decide)
  · have zeros : (String.ofList (List.replicate 4301 '0')).toList = List.replicate 4301 '0' :=
      String.toList_ofList
    refine (integer_text_round_trip 0 ?_ ?_).2.2.2 ?_
    · rw [zeros, ne_eq, List.replicate_eq_nil_iff]
      decide
    · rw [zeros]
      intro c mem
      rw [List.eq_of_mem_replicate mem]
      decide
    · rw [String.length_ofList, List.length_replicate]
      decide

end GotoBasic
