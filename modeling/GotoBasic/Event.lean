import GotoBasic.Label

/-!
# Events

What loading and running a program does, step by step.  Some events are notes for a person who
watches; they name the part that wrote them and have a text.
-/

namespace GotoBasic

/-- Something that happened. -/
inductive Event where
  /-- The text was cut into this many tokens, the end of input included. -/
  | tokenized (count : Nat)
  | parsed (lines : Nat)
  | assembled (lines : Nat) (entry : Option Label) (labels : List (Label × Nat))
  | lineStarted (index : Nat) (label : Option Label)
  | jumped (target : Label) (index : Nat)
  | read (text : String)
  | assigned (name : String) (value : Value)
  | wrote (text : String)
  deriving DecidableEq, Repr

namespace Event

/-- The part of the interpreter that a note comes from. -/
inductive Channel where
  | tokens
  | parse
  | assemble
  | runtime
  deriving DecidableEq, Repr

def Channel.name : Channel → String
  | .tokens => "linebasic.tokens"
  | .parse => "linebasic.parse"
  | .assemble => "linebasic.assemble"
  | .runtime => "linebasic.runtime"

/-- A table of labels, as notes show it. -/
def tableText (t : List (Label × Nat)) : String :=
  let entries := t.map fun (l, i) => l.shown ++ ": " ++ toString i
  "\x7b" ++ ", ".intercalate entries ++ "\x7d"

/-- The channel and the text of an event that is a note. -/
def note? : Event → Option (Channel × String)
  | .tokenized n => some (.tokens, "tokenized " ++ toString n ++ " tokens")
  | .parsed n => some (.parse, "parsed " ++ toString n ++ " lines")
  | .assembled n e t =>
    some (.assemble, "assembled " ++ toString n ++ " instructions, entry " ++ Label.shownOf e ++
      ", labels " ++ tableText t)
  | .lineStarted i l =>
    some (.runtime, "line " ++ toString i ++ " (label " ++ Label.shownOf l ++ ")")
  | .jumped l i => some (.runtime, "jump to " ++ l.shown ++ " (index " ++ toString i ++ ")")
  | _ => none

/-- The text of an event that is a write. -/
def written? : Event → Option String
  | .wrote s => some s
  | _ => none

def isRead : Event → Bool
  | .read _ => true
  | _ => false

end Event

end GotoBasic
