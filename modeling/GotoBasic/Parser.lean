import GotoBasic.Token

/-!
# Parsing tokens

A parser reads a `TokenStream`, which never runs dry: behind the last token it shows the end of
input for ever.  A parser that fails says what it wanted and which token stood there instead, and
leaves the stream where it failed.
-/

namespace GotoBasic

/-! ## Streams -/

/-- The tokens still to be read before the end of input, and the token that marks the end. -/
structure TokenStream where
  pending : List Token
  last : Token
  deriving DecidableEq, Repr

namespace TokenStream

/-- The stream of a token list.  What stands behind the first end of input is never read. -/
def ofTokens (ts : List Token) : TokenStream where
  pending := ts.takeWhile fun t => !t.isEof
  last := (ts.find? Token.isEof).getD ⟨.eof, "", Pos.start⟩

/-- The token that is next to be read. -/
def current (s : TokenStream) : Token := s.pending.headD s.last

/-- The stream behind its current token; the end of input is not passed. -/
def rest (s : TokenStream) : TokenStream := { s with pending := s.pending.tail }

/-- A bound for every nesting and repetition in what is still to be read. -/
def bound (s : TokenStream) : Nat := s.pending.length + 1

end TokenStream

/-! ## Errors -/

/-- What a parser wanted to see. -/
inductive Wanted where
  | symbol (s : String)
  | identifier
  | lineLabel
  /-- The colon behind an identifier at the start of a line. -/
  | colonAfter (label : String)
  | statement
  | expression
  | endOfLine
  deriving DecidableEq, Repr

def Wanted.text : Wanted → String
  | .symbol s => "'" ++ s ++ "'"
  | .identifier => "identifier"
  | .lineLabel => "line label"
  | .colonAfter l => "':' after line label '" ++ l ++ "'"
  | .statement => "statement"
  | .expression => "expression"
  | .endOfLine => "end of line"

/-- Why tokens are not a program. -/
inductive ParseError where
  | expected (wanted : Wanted) (found : Token)
  /-- The text of an integer token cannot be read as an integer. -/
  | integerTooLong (literal : Token)
  /-- The text of a float token is no number; only tokens made by hand have such a text. -/
  | malformedFloat (literal : Token)
  deriving DecidableEq, Repr

namespace ParseError

/-- An error is reported where the offending token starts. -/
def pos : ParseError → Pos
  | .expected _ t => t.pos
  | .integerTooLong t => t.pos
  | .malformedFloat t => t.pos

/-- The wording of the error, without its position. -/
def cause : ParseError → String
  | .expected w t => "expected " ++ w.text ++ ", got " ++ t.describe
  | .integerTooLong _ => "integer literal too long"
  | .malformedFloat _ => "malformed float literal"

def message (e : ParseError) : String := e.cause ++ e.pos.suffix

end ParseError

/-! ## Parsers -/

/-- Whether a token is the symbol or reserved word `s`.  Only its text counts, except that the
content of a string and the name of an identifier are never symbols. -/
def Token.isSymbol (t : Token) (s : String) : Bool :=
  t.text == s && t.kind != .string && t.kind != .ident

abbrev Parser (α : Type) := EStateM ParseError TokenStream α

namespace Parser

def current : Parser Token := return (← get).current

/-- Passes the current token. -/
def advance : Parser Unit := modify TokenStream.rest

/-- Fails at the current token. -/
def fail {α : Type} (wanted : Wanted) : Parser α := do
  throw (.expected wanted (← current))

/-- Passes the symbol `s`. -/
def expect (s : String) : Parser Unit := do
  if (← current).isSymbol s then advance else fail (.symbol s)

/-- Passes the symbol `s` if it is there, and says whether it was. -/
def accept (s : String) : Parser Bool := do
  if (← current).isSymbol s then
    advance
    return true
  else
    return false

/-- Passes an identifier and gives its name. -/
def identifier : Parser String := do
  let t ← current
  if t.kind = .ident then
    advance
    return t.text
  else
    fail .identifier

end Parser

end GotoBasic
