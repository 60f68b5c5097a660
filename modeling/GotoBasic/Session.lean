import GotoBasic.Load

/-!
# Sessions

Several machines that share one program and nothing else.  A command is given to one of them: it
may bind variables, feed input, run the program, or evaluate and run pieces of text.
-/

namespace GotoBasic

/-- What a machine can be asked to do. -/
inductive Command where
  /-- Adds texts behind the input that is still to be read. -/
  | feed (lines : List String)
  | set (name : String) (value : Value)
  | get (name : String)
  | has (name : String)
  /-- Runs the program from its entry. -/
  | run
  /-- Evaluates the expression at the front of a text. -/
  | eval (source : String)
  /-- Runs the statements on the first line of a text. -/
  | exec (source : String)
  deriving DecidableEq, Repr

/-- What a machine answers. -/
inductive Reply where
  | done
  | value (v : Value)
  | truth (b : Bool)
  /-- Whether a jump ended the line. -/
  | ended (jumped : Bool)
  | unbound (name : String)
  | rejected (e : LoadError)
  | failed (f : Fault)
  /-- The steps did not suffice. -/
  | running
  deriving DecidableEq, Repr

/-- Reads the front of a text with a parser and ignores what follows, except that all of the text
must consist of tokens. -/
def parseFront {α : Type} (parser : Nat → Parser α) (source : String) : Except LoadError α := do
  let ts ← (tokenize source).mapError .lexical
  let s := TokenStream.ofTokens ts
  match parser s.bound s with
  | .ok a _ => return a
  | .error e _ => throw (.parse e)

namespace Command

/-- Evaluates the expression at the front of a text. -/
def evalReply (source : String) (env : Env) : Reply :=
  match parseFront Parser.expr source with
  | .error e => .rejected e
  | .ok e =>
    match e.eval env with
    | .ok v => .value v
    | .error f => .failed f

/-- Runs the first line of a text.  Its label is of no account, and the instruction pointer keeps
its former value unless a jump sets it. -/
def execReply (p : Program) (n : Nat) (source : String) (m : Machine) : Reply × Machine :=
  match parseFront Parser.line source with
  | .error e => (.rejected e, m)
  | .ok l =>
    match p.runStmts n l.stmts m with
    | .ended jumped m' => (.ended jumped, m')
    | .failed f m' => (.failed f, m')
    | .running _ m' => (.running, m')

/-- Does what a command asks, with at most `n` steps. -/
def perform (p : Program) (n : Nat) (m : Machine) : Command → Reply × Machine
  | .feed ls => (.done, { m with input := m.input ++ ls })
  | .set x v => (.done, { m with env := m.env.set x v })
  | .get x =>
    match m.env.get? x with
    | some v => (.value v, m)
    | none => (.unbound x, m)
  | .has x => (.truth (m.env.get? x).isSome, m)
  | .run =>
    match p.run n m with
    | .done m' => (.done, m')
    | .failed f m' => (.failed f, m')
    | .running c => (.running, c.machine)
  | .eval source => (evalReply source m.env, m)
  | .exec source => execReply p n source m

end Command

/-- A program and the machines that share it. -/
structure Session where
  program : Program
  machines : List Machine
  deriving DecidableEq, Repr

namespace Session

/-- A session with one machine. -/
def start (p : Program) : Session := ⟨p, [Machine.fresh]⟩

/-- Adds a fresh machine behind the others. -/
def extend (s : Session) : Session := { s with machines := s.machines ++ [Machine.fresh] }

/-- The machine with a given number, a fresh one if there is none. -/
def machine (s : Session) (who : Nat) : Machine := s.machines.getD who Machine.fresh

/-- Gives a command to one machine and leaves all others alone.  The machine's record starts
anew, so that afterwards it holds what the command did. -/
def perform (s : Session) (n who : Nat) (c : Command) : Reply × Session :=
  let (r, m) := c.perform s.program n { s.machine who with trace := [] }
  (r, { s with machines := s.machines.set who m })

end Session

end GotoBasic
