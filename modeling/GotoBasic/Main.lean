import GotoBasic.Cli

/-!
# The executable

The outer layer of the command line.  It takes the turns of `Cli.proceed` one after another, with
the file system and standard input as the host, and prints what each turn prints before it takes
the next one.
-/

namespace GotoBasic.Cli

/-- The words of the system for an error, with its number, which may come negated. -/
def systemText (file : String) (code : UInt32) (words : String) : String :=
  let number := min code (-code)
  "[Errno " ++ toString number ++ "] " ++ words.capitalize ++ ": " ++ Text.quoted file

/-- The bytes of a file, or why they cannot be read. -/
def readBytes (file : String) : IO (Except FileError (List UInt8)) := do
  try
    return .ok (← IO.FS.readBinFile file).toList
  catch e =>
    match e with
    | .noFileOrDirectory .. => return .error .notFound
    | .inappropriateType _ code words | .permissionDenied _ code words
    | .invalidArgument _ code words => return .error (.other (systemText file code words))
    | e => return .error (.other (toString e))

/-- The file system and standard input. -/
def systemHost : Host IO where
  read := readBytes
  line := do
    let text ← (← IO.getStdin).getLine
    return inputLines text

def Exit.status : Exit → UInt32
  | .code n => n.toUInt32
  | .uncaught => 1

/-- Prints a turn and takes the next ones until the invocation has ended. -/
partial def perform (t : Turn) : IO UInt32 := do
  IO.eprint t.stderr
  IO.print t.stdout
  (← IO.getStdout).flush
  match t.stage with
  | .ended exit => return exit.status
  | stage => perform (← proceed systemHost stage)

end GotoBasic.Cli

open GotoBasic in
def main (args : List String) : IO UInt32 := Cli.perform (Cli.Turn.start (Request.ofArgs args))
