import GotoBasic.Proofs.Cli.Arguments
import GotoBasic.Proofs.Cli.Turns

/-!
# An invocation is loading and running

What an invocation prints, and the exit code it ends with, is what comes of reading the file,
loading its text and running the program (`Cli.report_specified`).  `Cli.Answers` says how each
outcome is reported; notes come before the complaint and change nothing else.

A run may go on for ever, and then an invocation does not end.  `Cli.EndsWith` is the report of one
that does.
-/

namespace GotoBasic

theorem runSource_eq_error_iff {source : String} {n : Nat} {m : Machine} {e : LoadError} :
    runSource n source m = .error e ↔ load source = .error e := by
  rw [runSource_eq_map]
  cases load source with
  | error e' =>
    constructor
    · rintro ⟨⟩
      rfl
    · rintro ⟨⟩
      rfl
  | ok p => exact ⟨(nomatch ·), (nomatch ·)⟩

namespace Cli

open Request (Asks)

variable {read : Reader} {file stdin source : String} {args before after : List String} {n : Nat}
  {r r' : Report} {q : Request} {debug : Bool}

/-! ## What comes of a file -/

/-- The machine on which a program is run. -/
def start (stdin : String) : Machine := { Machine.fresh with input := inputLines stdin }

/-- The file can be read, and this text stands in it. -/
def HasText (read : Reader) (file source : String) : Prop :=
  ∃ bytes, read file = .ok bytes ∧ Text.decode? bytes = some source

/-- What loading and running the text of a file is reported as, without notes. -/
inductive Answers (read : Reader) (file stdin : String) : Report → Prop
  | unreadable {e : FileError} (error : read file = .error e) :
      Answers read file stdin ⟨.code 1, "", complaint (file ++ ": " ++ e.message)⟩
  | undecodable {bytes : List UInt8} (opened : read file = .ok bytes)
      (noText : Text.decode? bytes = none) :
      Answers read file stdin ⟨.code 1, "", complaint (file ++ ": invalid utf-8")⟩
  | lexical {source : String} {e : LexError} (text : HasText read file source)
      (error : load source = .error (.lexical e)) :
      Answers read file stdin ⟨.code 1, "", complaint ("lexical error: " ++ e.message)⟩
  | parse {source : String} {e : ParseError} (text : HasText read file source)
      (error : load source = .error (.parse e)) :
      Answers read file stdin ⟨.code 1, "", complaint ("parse error: " ++ e.message)⟩
  | duplicate {source : String} {e : DuplicateLabel} (text : HasText read file source)
      (error : load source = .error (.duplicate e)) :
      Answers read file stdin ⟨.code 1, "", complaint ("parse error: " ++ e.message)⟩
  | done {source : String} {n : Nat} {m : Machine} (text : HasText read file source)
      (run : runSource n source (start stdin) = .ok (.done m)) :
      Answers read file stdin ⟨.code 0, String.join m.output, ""⟩
  | failed {source : String} {n : Nat} {f : Fault} {m : Machine} (text : HasText read file source)
      (run : runSource n source (start stdin) = .ok (.failed f m)) :
      Answers read file stdin
        ⟨.code 1, String.join m.output, complaint ("runtime error: " ++ f.message)⟩

/-! ## Invocations -/

/-- An invocation comes to an end and is reported as `r`. -/
def EndsWith (read : Reader) (stdin : String) (args : List String) (r : Report) : Prop :=
  ∃ n, report n read args stdin = some r

/-- The report with notes in front of what stands on standard error. -/
def Report.noted (r : Report) (debug : Bool) (es : List Event) : Report :=
  { r with stderr := noteLines debug es ++ r.stderr }

/-- Nobody asked for notes. -/
@[simp] theorem Report.noted_false (r : Report) (es : List Event) : r.noted false es = r := by
  simp [noted]

@[simp] theorem Report.noted_nil (r : Report) : r.noted debug [] = r := by
  cases debug <;> simp [noted, noteLines]

/-! ## Carrying out a request -/

/-- An invocation that has ended stays as it is, however many steps there are. -/
theorem respond_add (ends : respond n read stdin q = some r) (k : Nat) :
    respond (n + k) read stdin q = some r := by
  have finishes := Turn.finish_add ends k
  rw [Nat.add_right_comm] at finishes
  exact finishes

theorem respond_unique {k : Nat} (ends : respond n read stdin q = some r)
    (ends' : respond k read stdin q = some r') : r = r' := by
  have later := respond_add ends k
  rw [Nat.add_comm, respond_add ends' n] at later
  exact (Option.some.inj later).symm

/-- A path with a null character is not even looked up. -/
theorem respond_of_null (null : '\x00' ∈ file.toList) :
    respond n read stdin (.run file debug) = some ⟨.uncaught, "", ""⟩ := by
  unfold respond Turn.start
  dsimp only
  rw [if_pos null]
  rfl

/-- The first turn opens the file. -/
theorem respond_run (path : '\x00' ∉ file.toList) :
    respond n read stdin (.run file debug) =
      (Turn.ofFile file debug (read file)).finish read n (inputLines stdin) := by
  unfold respond Turn.start
  dsimp only
  rw [if_neg path]
  have first (t : Turn) : t.after "" "" = t := by simp [Turn.after]
  exact congrArg (Turn.finish read n (inputLines stdin)) (first _)

theorem respond_of_unreadable {e : FileError} (path : '\x00' ∉ file.toList)
    (error : read file = .error e) :
    respond n read stdin (.run file debug) = some ⟨.code 1, "", fileComplaint file e⟩ := by
  rw [respond_run path, error]
  exact Turn.finish_of_ended n _ _ _ _

theorem respond_of_undecodable {bytes : List UInt8} (path : '\x00' ∉ file.toList)
    (opened : read file = .ok bytes) (noText : Text.decode? bytes = none) :
    respond n read stdin (.run file debug) = some ⟨.code 1, "", encodingComplaint file⟩ := by
  rw [respond_run path, opened]
  simp only [Turn.ofFile, noText]
  exact Turn.finish_of_ended n _ _ _ _

theorem respond_of_text (path : '\x00' ∉ file.toList) (text : HasText read file source) :
    respond n read stdin (.run file debug) =
      ofResult debug source (runSource n source (start stdin)) := by
  obtain ⟨bytes, opened, decoded⟩ := text
  rw [respond_run path, opened]
  simp only [Turn.ofFile, decoded]
  exact Turn.finish_ofText n _ debug source

theorem HasText.unique {source' : String} (text : HasText read file source)
    (text' : HasText read file source') : source = source' := by
  obtain ⟨bytes, opened, decoded⟩ := text
  obtain ⟨bytes', opened', decoded'⟩ := text'
  rw [opened] at opened'
  cases opened'
  rw [decoded] at decoded'
  exact Option.some.inj decoded'

/-- A file cannot be read, or is not text, or is. -/
theorem file_cases (read : Reader) (file : String) :
    (∃ e, read file = .error e) ∨
      (∃ bytes, read file = .ok bytes ∧ Text.decode? bytes = none) ∨
      ∃ source, HasText read file source := by
  cases opened : read file with
  | error e => exact .inl ⟨e, rfl⟩
  | ok bytes =>
    cases decoded : Text.decode? bytes with
    | none => exact .inr (.inl ⟨bytes, rfl, decoded⟩)
    | some source => exact .inr (.inr ⟨source, bytes, opened, decoded⟩)

/-- Notes only stand in front of what is printed of a text without them. -/
theorem ofResult_noted (source : String) (result : Except LoadError Outcome) :
    ∃ es, ∀ debug, ofResult debug source result =
      (ofResult false source result).map (·.noted debug es) := by
  rcases result with e | (m | ⟨f, m⟩ | c)
  · exact ⟨loadNotes source, fun debug => by simp [ofResult, Report.noted]⟩
  · exact ⟨loadNotes source ++ m.events, fun debug => by
      simp [ofResult, ofOutcome, Report.noted, noteLines_append]⟩
  · exact ⟨loadNotes source ++ m.events, fun debug => by
      simp [ofResult, ofOutcome, Report.noted, noteLines_append]⟩
  · exact ⟨[], fun debug => rfl⟩

/-- Notes only stand in front of what is on standard error otherwise. -/
theorem respond_noted (n : Nat) (read : Reader) (file stdin : String) :
    ∃ es, ∀ debug, respond n read stdin (.run file debug) =
      (respond n read stdin (.run file false)).map (·.noted debug es) := by
  by_cases null : '\x00' ∈ file.toList
  · exact ⟨[], fun debug => by rw [respond_of_null null, respond_of_null null]; simp⟩
  rcases file_cases read file with ⟨e, error⟩ | ⟨bytes, opened, noText⟩ | ⟨source, text⟩
  · refine ⟨[], fun debug => ?_⟩
    rw [respond_of_unreadable null error, respond_of_unreadable null error]
    simp
  · refine ⟨[], fun debug => ?_⟩
    rw [respond_of_undecodable null opened noText, respond_of_undecodable null opened noText]
    simp
  · obtain ⟨es, noted⟩ := ofResult_noted source (runSource n source (start stdin))
    refine ⟨es, fun debug => ?_⟩
    rw [respond_of_text null text, respond_of_text null text]
    exact noted debug

/-- Without notes an invocation that ends reports what comes of the file. -/
theorem answers_of_respond (path : '\x00' ∉ file.toList)
    (ends : respond n read stdin (.run file false) = some r) : Answers read file stdin r := by
  rcases file_cases read file with ⟨e, error⟩ | ⟨bytes, opened, noText⟩ | ⟨source, text⟩
  · rw [respond_of_unreadable path error] at ends
    cases ends
    exact .unreadable error
  · rw [respond_of_undecodable path opened noText] at ends
    cases ends
    exact .undecodable opened noText
  · rw [respond_of_text path text] at ends
    cases result : runSource n source (start stdin) with
    | error e =>
      have error := runSource_eq_error_iff.1 result
      rw [result] at ends
      cases ends
      rw [noteLines_false, String.empty_append]
      cases e with
      | lexical e => exact .lexical text error
      | parse e => exact .parse text error
      | duplicate e => exact .duplicate text error
    | ok o =>
      rw [result] at ends
      cases o with
      | done m =>
        cases ends
        rw [noteLines_false, noteLines_false, String.empty_append]
        exact .done text result
      | failed f m =>
        cases ends
        rw [noteLines_false, noteLines_false, String.empty_append, String.empty_append]
        exact .failed text result
      | running c => cases ends

/-- Whatever comes of a file is reported, if there are enough steps. -/
theorem exists_respond (path : '\x00' ∉ file.toList) (answers : Answers read file stdin r) :
    ∃ n, respond n read stdin (.run file false) = some r := by
  have rejected {source : String} {e : LoadError} (text : HasText read file source)
      (error : load source = .error e) :
      respond 0 read stdin (.run file false) = some ⟨.code 1, "", loadComplaint e⟩ := by
    have result : runSource 0 source (start stdin) = .error e := runSource_eq_error_iff.2 error
    rw [respond_of_text path text, result, ofResult, noteLines_false, String.empty_append]
  cases answers with
  | unreadable error => exact ⟨0, respond_of_unreadable path error⟩
  | undecodable opened noText => exact ⟨0, respond_of_undecodable path opened noText⟩
  | lexical text error => exact ⟨0, rejected text error⟩
  | parse text error => exact ⟨0, rejected text error⟩
  | duplicate text error => exact ⟨0, rejected text error⟩
  | @done source n m text run =>
    refine ⟨n, ?_⟩
    rw [respond_of_text path text, run, ofResult, ofOutcome, noteLines_false, noteLines_false,
      String.empty_append]
  | @failed source n f m text run =>
    refine ⟨n, ?_⟩
    rw [respond_of_text path text, run, ofResult, ofOutcome, noteLines_false, noteLines_false,
      String.empty_append, String.empty_append]
    rfl

theorem Answers.unique (path : '\x00' ∉ file.toList) (answers : Answers read file stdin r)
    (answers' : Answers read file stdin r') : r = r' := by
  obtain ⟨n, ends⟩ := exists_respond path answers
  obtain ⟨k, ends'⟩ := exists_respond path answers'
  exact respond_unique ends ends'

/-- What comes of a file is a success exactly if its program runs to its end. -/
theorem Answers.exit_eq_zero_iff (path : '\x00' ∉ file.toList)
    (answers : Answers read file stdin r) :
    r.exit = .code 0 ↔ ∃ source n m, HasText read file source ∧
      runSource n source (start stdin) = .ok (.done m) := by
  constructor
  · intro success
    cases answers with
    | @done source n m text run => exact ⟨source, n, m, text, run⟩
    | _ => cases success
  · rintro ⟨source, n, m, text, run⟩
    rw [answers.unique path (.done text run)]

theorem Answers.exit_le_one (answers : Answers read file stdin r) :
    r.exit = .code 0 ∨ r.exit = .code 1 := by
  cases answers with
  | done text run => exact .inl rfl
  | _ => exact .inr rfl

/-- An invocation that runs a file ends, or else its program goes on for ever. -/
theorem ends_or_runs_on (debug : Bool) (read : Reader) (path : '\x00' ∉ file.toList)
    (stdin : String) :
    (∃ n r, respond n read stdin (.run file debug) = some r) ∨
      ∃ source, HasText read file source ∧
        ∀ n, ∃ c, runSource n source (start stdin) = .ok (.running c) := by
  rcases file_cases read file with ⟨e, error⟩ | ⟨bytes, opened, noText⟩ | ⟨source, text⟩
  · exact .inl ⟨0, _, respond_of_unreadable path error⟩
  · exact .inl ⟨0, _, respond_of_undecodable path opened noText⟩
  · by_cases ends : ∃ n r, respond n read stdin (.run file debug) = some r
    · exact .inl ends
    · refine .inr ⟨source, text, fun n => ?_⟩
      have never (r : Report) :
          ofResult debug source (runSource n source (start stdin)) ≠ some r := fun same =>
        ends ⟨n, r, by rw [respond_of_text path text, same]⟩
      cases result : runSource n source (start stdin) with
      | error e => exact absurd (by rw [result]; rfl) (never _)
      | ok o =>
        cases o with
        | running c => exact ⟨c, rfl⟩
        | done m => exact absurd (by rw [result]; rfl) (never _)
        | failed f m => exact absurd (by rw [result]; rfl) (never _)

/-! ## Whole invocations -/

/-- An invocation reports what comes of the file, and nothing else. -/
structure Runs (read : Reader) (stdin : String) (args : List String) (file : String)
    (debug : Bool) : Prop where
  sound : ∀ r, EndsWith read stdin args r →
    ∃ r' es, Answers read file stdin r' ∧ r = r'.noted debug es
  complete : ∀ r', Answers read file stdin r' →
    ∃ es, EndsWith read stdin args (r'.noted debug es)
  /-- The exit code tells whether the program was run to its end. -/
  exit : ∀ r, EndsWith read stdin args r →
    (r.exit = .code 0 ↔ ∃ source n m, HasText read file source ∧
      runSource n source (start stdin) = .ok (.done m)) ∧ (r.exit = .code 0 ∨ r.exit = .code 1)
  /-- Only a run that goes on for ever keeps an invocation from ending. -/
  ends : (∃ r, EndsWith read stdin args r) ∨ ∃ source, HasText read file source ∧
    ∀ n, ∃ c, runSource n source (start stdin) = .ok (.running c)

/-- What an invocation does with its arguments, the files and its input. -/
structure Specified (read : Reader) (stdin : String) (args : List String) : Prop where
  request : (∃ q, Asks args q) ∧ ∀ q q', Asks args q → Asks args q' → q = q'
  unique : ∀ r r', EndsWith read stdin args r → EndsWith read stdin args r' → r = r'
  usage : Asks args .usage → ∀ r, EndsWith read stdin args r ↔ r = ⟨.code 0, Cli.usage, ""⟩
  reject : ∀ reason, Asks args (.reject reason) →
    ∀ r, EndsWith read stdin args r ↔ r = ⟨.code 2, "", complaint reason⟩
  run : ∀ file debug, Asks args (.run file debug) → '\x00' ∉ file.toList →
    Runs read stdin args file debug
  /-- With `--debug` anywhere among the arguments there are notes in front of what stands on
  standard error without it, and nothing else changes. -/
  notes : ∀ before after, args = before ++ after → ∀ n,
    ∃ es, report n read (before ++ "--debug" :: after) stdin =
      (report n read args stdin).map (·.noted true es)

theorem endsWith_iff_of_settled (settled : ∀ n, respond n read stdin q = some r)
    (asks : Asks args q) : EndsWith read stdin args r' ↔ r' = r := by
  unfold EndsWith report
  rw [Request.ofArgs_of_asks asks]
  constructor
  · rintro ⟨n, ends⟩
    exact respond_unique ends (settled 0)
  · rintro rfl
    exact ⟨0, settled 0⟩

theorem EndsWith.unique (ends : EndsWith read stdin args r) (ends' : EndsWith read stdin args r') :
    r = r' := by
  obtain ⟨n, ends⟩ := ends
  obtain ⟨k, ends'⟩ := ends'
  exact respond_unique ends ends'

theorem runs_of_asks (path : '\x00' ∉ file.toList) (asks : Asks args (.run file debug)) :
    Runs read stdin args file debug := by
  have request (n : Nat) : report n read args stdin = respond n read stdin (.run file debug) := by
    rw [report, Request.ofArgs_of_asks asks]
  have sound (r : Report) (ends : EndsWith read stdin args r) :
      ∃ r' es, Answers read file stdin r' ∧ r = r'.noted debug es := by
    obtain ⟨n, ends⟩ := ends
    obtain ⟨es, noted⟩ := respond_noted n read file stdin
    rw [request, noted debug] at ends
    obtain ⟨r', plain, rfl⟩ := Option.map_eq_some_iff.1 ends
    exact ⟨r', es, answers_of_respond path plain, rfl⟩
  refine ⟨sound, fun r' answers => ?_, fun r ends => ?_, ?_⟩
  · obtain ⟨n, plain⟩ := exists_respond path answers
    obtain ⟨es, noted⟩ := respond_noted n read file stdin
    refine ⟨es, n, ?_⟩
    rw [request, noted debug, plain, Option.map_some]
  · obtain ⟨r', es, answers, rfl⟩ := sound r ends
    have exit : (r'.noted debug es).exit = r'.exit := rfl
    rw [exit]
    exact ⟨answers.exit_eq_zero_iff path, answers.exit_le_one⟩
  · refine (ends_or_runs_on debug read path stdin).imp_left fun ⟨n, r, ends⟩ => ?_
    exact ⟨r, n, by rw [request, ends]⟩

theorem report_insert (n : Nat) (read : Reader) (before after : List String) (stdin : String) :
    ∃ es, report n read (before ++ "--debug" :: after) stdin =
      (report n read (before ++ after) stdin).map (·.noted true es) := by
  unfold report
  rw [Request.ofArgs_insert]
  have unchanged (o : Option Report) : o = o.map (·.noted true []) := by cases o <;> simp
  cases Request.ofArgs (before ++ after) with
  | usage => exact ⟨[], unchanged _⟩
  | reject reason => exact ⟨[], unchanged _⟩
  | run file debug =>
    cases debug with
    | true => exact ⟨[], unchanged _⟩
    | false =>
      obtain ⟨es, noted⟩ := respond_noted n read file stdin
      exact ⟨es, noted true⟩

/-- Arguments are read from left to right until one settles the matter.  If none does, an invocation
reports what reading, loading and running the named file comes to, and its exit code tells whether
the run was completed.  Notes stand in front of the complaint and change nothing else. -/
theorem report_specified (read : Reader) (stdin : String) (args : List String) :
    Specified read stdin args where
  request := by
    refine ⟨Request.exists_asks args, fun q q' asks asks' => ?_⟩
    rw [← Request.ofArgs_of_asks asks, Request.ofArgs_of_asks asks']
  unique _ _ := EndsWith.unique
  usage asks r := endsWith_iff_of_settled (fun _ => rfl) asks
  reject reason asks r := endsWith_iff_of_settled (fun _ => rfl) asks
  run file debug asks path := runs_of_asks path asks
  notes before after split n := by
    subst split
    exact report_insert n read before after stdin

/-- One file, in which `PRINT 1` stands. -/
def onePrint : Reader := fun path =>
  if path = "p.bas" then .ok [80, 82, 73, 78, 84, 32, 49] else .error .notFound

theorem hasText_onePrint : HasText onePrint "p.bas" "PRINT 1" := ⟨_, rfl, by decide +kernel⟩

theorem exists_run_onePrint : ∃ n m, runSource n "PRINT 1" (start "") = .ok (.done m) ∧
    String.join m.output = "1\n" := by
  have checked : (runSource 9 "PRINT 1" (start "")).toOption.bind (ofOutcome false "") =
      some ⟨.code 0, "1\n", ""⟩ := by decide +kernel
  cases run : runSource 9 "PRINT 1" (start "") with
  | error e =>
    rw [run] at checked
    cases checked
  | ok o =>
    rw [run] at checked
    cases o with
    | done m => exact ⟨9, m, run, congrArg Report.stdout (Option.some.inj checked)⟩
    | failed f m => cases Option.some.inj checked
    | running c => cases checked

/-- An invocation with notes. -/
theorem report_specified_noted : ∃ es, EndsWith onePrint "" ["--debug", "p.bas"]
    (Report.noted ⟨.code 0, "1\n", ""⟩ true es) := by
  have asks : Asks ["--debug", "p.bas"] (.run "p.bas" true) := Request.ofArgs_eq_iff.1 rfl
  obtain ⟨n, m, run, output⟩ := exists_run_onePrint
  rw [← output]
  exact ((report_specified onePrint "" ["--debug", "p.bas"]).run "p.bas" true asks
    (by decide)).complete _ (.done hasText_onePrint run)

/-- An empty argument names no file, and still there is no place for it behind the name of one: the
file is not run, although no argument is a flag and no second one is the name of a file. -/
theorem report_empty_surplus :
    (∀ arg ∈ ["p.bas", ""], arg ≠ "--help" ∧ arg ≠ "-h" ∧ arg.toList.head? ≠ some '-') ∧
      ["p.bas", ""].filter Request.namesFile = ["p.bas"] ∧ HasText onePrint "p.bas" "PRINT 1" ∧
      (∃ n m, runSource n "PRINT 1" (start "") = .ok (.done m) ∧ String.join m.output = "1\n") ∧
      ∀ n, report n onePrint ["p.bas", ""] "" =
        some ⟨.code 2, "", complaint "unexpected argument ''"⟩ :=
  ⟨by decide, by decide, hasText_onePrint, exists_run_onePrint, fun _ => rfl⟩

end Cli

end GotoBasic
