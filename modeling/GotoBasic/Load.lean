import GotoBasic.Event
import GotoBasic.Line.Parser
import GotoBasic.Run
import GotoBasic.Text.Encoding
import GotoBasic.Token.Lexer

/-!
# Loading programs

A program text is cut into tokens, the tokens are parsed into lines, and the lines are checked to
be a program.  The first of the three that fails decides the error.
-/

namespace GotoBasic

/-- Why a text is not a program. -/
inductive LoadError where
  | lexical (e : LexError)
  | parse (e : ParseError)
  | duplicate (e : DuplicateLabel)
  deriving DecidableEq, Repr

namespace LoadError

def pos : LoadError → Pos
  | .lexical e => e.pos
  | .parse e => e.pos
  | .duplicate e => e.pos

/-- The wording of the error, without its position. -/
def cause : LoadError → String
  | .lexical e => e.cause
  | .parse e => e.cause
  | .duplicate e => e.cause

def message (e : LoadError) : String := e.cause ++ e.pos.suffix

end LoadError

/-- The lines of a program text. -/
def parse (source : String) : Except LoadError (List Line) := do
  let ts ← (tokenize source).mapError .lexical
  (parseTokens ts).mapError .parse

/-- The program that a text denotes. -/
def load (source : String) : Except LoadError Program := do
  let ls ← parse source
  (Program.ofLines ls).mapError .duplicate

/-- What can be checked of the program of a text by running `load`. -/
theorem exists_load (source : String) {P : Program → Prop} [DecidablePred P]
    (checked : (load source).toOption.any fun p => decide (P p)) :
    ∃ p, load source = .ok p ∧ P p := by
  cases loads : load source with
  | error e =>
    rw [loads] at checked
    cases checked
  | ok p =>
    rw [loads] at checked
    exact ⟨p, rfl, of_decide_eq_true checked⟩

/-- The note on a program that has been built. -/
def Program.assembledNote (p : Program) : Event := .assembled p.lines.length p.entry p.labels

/-- The notes on loading a text, up to the point where loading fails if it does. -/
def loadNotes (source : String) : List Event :=
  match tokenize source with
  | .error _ => []
  | .ok ts =>
    .tokenized ts.length ::
      match parseTokens ts with
      | .error _ => []
      | .ok ls =>
        .parsed ls.length ::
          match Program.ofLines ls with
          | .error _ => []
          | .ok p => [p.assembledNote]

/-- Loads a text and runs the program on a machine, with at most `n` steps. -/
def runSource (n : Nat) (source : String) (m : Machine) : Except LoadError Outcome := do
  let p ← load source
  return p.run n m

theorem runSource_eq_map (n : Nat) (source : String) (m : Machine) :
    runSource n source m = (load source).map fun p => p.run n m := rfl

/-- Runs the program that the bytes of a file encode; nothing if they encode no text. -/
def runFile? (n : Nat) (bytes : List UInt8) (m : Machine) : Option (Except LoadError Outcome) :=
  (Text.decodeLines? bytes).map fun source => runSource n source m

end GotoBasic
