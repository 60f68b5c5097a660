import GotoBasic.Load

/-!
# The command line

The arguments are read from left to right and the first that settles the matter does.  Otherwise
a file is loaded and run, with standard input as the lines that `INPUT` reads.

* `Request.ofArgs` says what the arguments ask for.
* `Cli.Turn.start` and `Cli.proceed` take an invocation forward a turn at a time, and ask a
  `Cli.Host` for what only the system can give.
* `Cli.report` puts the turns together, for given files and a given standard input.
-/

namespace GotoBasic

/-- What the arguments ask for. -/
inductive Request where
  | usage
  | reject (reason : String)
  | run (file : String) (debug : Bool)
  deriving DecidableEq, Repr

namespace Request

/-- Reads further arguments, given the file named so far, or the empty text, and whether notes
were asked for. -/
def scan (file : String) (debug : Bool) : List String → Request
  | [] => if file = "" then .reject "missing file argument" else .run file debug
  | arg :: args =>
    if arg = "--help" ∨ arg = "-h" then .usage
    else if arg = "--debug" then scan file true args
    else if arg.toList.head? = some '-' then .reject ("unknown flag '" ++ arg ++ "'")
    else if file = "" then scan arg debug args
    else .reject ("unexpected argument '" ++ arg ++ "'")

def ofArgs (args : List String) : Request := scan "" false args

end Request

namespace Cli

/-- What `--help` prints. -/
def usage : String :=
  "linebasic [OPTIONS] FILE\n\n" ++
    "Run a linebasic program. INPUT statements read from stdin.\n\n" ++
    "Options:\n" ++
    "  --debug    Log tokenizing, assembly and every executed line to stderr\n" ++
    "  --help     Show this help message\n"

/-! ## What is printed -/

/-- Why a path cannot be read. -/
inductive FileError where
  | notFound
  /-- Any other reason, in the words of the system. -/
  | other (text : String)
  deriving DecidableEq, Repr

def FileError.message : FileError → String
  | .notFound => "No such file or directory"
  | .other text => text

/-- A line on standard error. -/
def complaint (text : String) : String := "linebasic: " ++ text ++ "\n"

/-- The complaint about a text that is no program. -/
def loadComplaint (e : LoadError) : String :=
  match e with
  | .lexical _ => complaint ("lexical error: " ++ e.message)
  | _ => complaint ("parse error: " ++ e.message)

/-- The complaint about a run that failed. -/
def faultComplaint (f : Fault) : String := complaint ("runtime error: " ++ f.message)

/-- The complaint about a file that cannot be read. -/
def fileComplaint (file : String) (e : FileError) : String := complaint (file ++ ": " ++ e.message)

/-- The complaint about a file that is not text. -/
def encodingComplaint (file : String) : String := complaint (file ++ ": invalid utf-8")

/-- The lines that events add to standard error when notes are asked for. -/
def noteLines (debug : Bool) (es : List Event) : String :=
  let line (n : Event.Channel × String) : String := n.1.name ++ ": " ++ n.2 ++ "\n"
  if debug then String.join ((es.filterMap Event.note?).map line) else ""

/-! ## Turns -/

/-- How an invocation ends. -/
inductive Exit where
  | code (n : Nat)
  /-- The path of the file holds the null character, which no path can, and nothing answers that. -/
  | uncaught
  deriving DecidableEq, Repr

/-- Where an invocation stands. -/
inductive Stage where
  /-- The file is to be read. -/
  | reading (file : String) (debug : Bool)
  /-- The program is under way.  Its machine holds neither input nor a record of events. -/
  | running (p : Program) (debug : Bool) (c : Config)
  | ended (exit : Exit)

/-- What an invocation prints at a time, and where it stands then. -/
structure Turn where
  stdout : String
  stderr : String
  stage : Stage

/-- The turn with texts in front of what it prints. -/
def Turn.after (out err : String) (t : Turn) : Turn :=
  { t with stdout := out ++ t.stdout, stderr := err ++ t.stderr }

/-- The first turn. -/
def Turn.start : Request → Turn
  | .usage => ⟨usage, "", .ended (.code 0)⟩
  | .reject reason => ⟨"", complaint reason, .ended (.code 2)⟩
  | .run file debug =>
    if '\x00' ∈ file.toList then ⟨"", "", .ended .uncaught⟩ else ⟨"", "", .reading file debug⟩

/-- The turn on which a step of a program is taken. -/
def Turn.ofStep (p : Program) (debug : Bool) : Step → Turn
  | .next c =>
    let stage := Stage.running p debug { c with machine := { c.machine with trace := [] } }
    ⟨String.join c.machine.output, noteLines debug c.machine.events, stage⟩
  | .done m => ⟨String.join m.output, noteLines debug m.events, .ended (.code 0)⟩
  | .failed f m =>
    ⟨String.join m.output, noteLines debug m.events ++ faultComplaint f, .ended (.code 1)⟩

/-- The turn on which a program text is loaded and its first line is started. -/
def Turn.ofText (debug : Bool) (source : String) : Turn :=
  let notes := noteLines debug (loadNotes source)
  match load source with
  | .error e => ⟨"", notes ++ loadComplaint e, .ended (.code 1)⟩
  | .ok p => (Turn.ofStep p debug (p.enter p.entryIndex Machine.fresh)).after "" notes

/-- The turn on which a file is opened. -/
def Turn.ofFile (file : String) (debug : Bool) : Except FileError (List UInt8) → Turn
  | .error e => ⟨"", fileComplaint file e, .ended (.code 1)⟩
  | .ok bytes =>
    match Text.decode? bytes with
    | none => ⟨"", encodingComplaint file, .ended (.code 1)⟩
    | some source => Turn.ofText debug source

/-- The next statement reads a line of input. -/
def asksInput : List Stmt → Bool
  | .input _ _ :: _ => true
  | _ => false

/-- What the system gives to an invocation. -/
structure Host (M : Type → Type) where
  /-- The bytes of the file at a path. -/
  read : String → M (Except FileError (List UInt8))
  /-- The next line of standard input, with its line feed; nothing at the end. -/
  line : M (List String)

/-- The turn after a stage.  An invocation that has ended stays as it is. -/
def proceed {M : Type → Type} [Monad M] (host : Host M) : Stage → M Turn
  | .reading file debug => return Turn.ofFile file debug (← host.read file)
  | .running p debug c => do
    let input ← if asksInput c.rest then host.line else pure []
    return Turn.ofStep p debug (p.step { c with machine := { c.machine with input := input } })
  | .ended exit => return ⟨"", "", .ended exit⟩

/-! ## Whole invocations -/

/-- The result of an invocation. -/
structure Report where
  exit : Exit
  stdout : String
  stderr : String
  deriving DecidableEq, Repr

/-- What reading a path gives. -/
abbrev Reader := String → Except FileError (List UInt8)

/-- The lines of a text, as reading it line by line gives them.  Only a line feed ends a line. -/
def inputLines (stdin : String) : List String := (Text.lines stdin.toList).map String.ofList

/-- A host with given files, and with given lines to read. -/
def Host.ofReader (read : Reader) : Host (StateM (List String)) where
  read file := pure (read file)
  line := modifyGet fun lines => (lines.take 1, lines.drop 1)

/-- Everything that is printed from a turn on, and the end; nothing if `n` more turns do not
suffice. -/
def Turn.finish (read : Reader) : (n : Nat) → (lines : List String) → Turn → Option Report
  | _, _, ⟨out, err, .ended exit⟩ => some ⟨exit, out, err⟩
  | 0, _, _ => none
  | n + 1, lines, ⟨out, err, stage⟩ =>
    let (t, lines') := (proceed (Host.ofReader read) stage).run lines
    Turn.finish read n lines' (t.after out err)

/-- Carries out a request, with the text `stdin` as standard input.  The first of the turns opens
the file, so there are `n` steps for the program. -/
def respond (n : Nat) (read : Reader) (stdin : String) (q : Request) : Option Report :=
  (Turn.start q).finish read (n + 1) (inputLines stdin)

/-- What an invocation prints and how it ends, if its run takes at most `n` steps. -/
def report (n : Nat) (read : Reader) (args : List String) (stdin : String) : Option Report :=
  respond n read stdin (Request.ofArgs args)

end Cli

end GotoBasic
