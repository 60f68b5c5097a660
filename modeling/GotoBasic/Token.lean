import GotoBasic.Pos
import GotoBasic.Text.Quoted

/-!
# Tokens
-/

namespace GotoBasic

/-- The reserved words. -/
inductive Keyword where
  | ifWord
  | whileWord
  | thenWord
  | elseWord
  | printWord
  | inputWord
  | gotoWord
  | exitWord
  | nopWord
  | letWord
  deriving DecidableEq, Repr

namespace Keyword

def all : List Keyword :=
  [.ifWord, .whileWord, .thenWord, .elseWord, .printWord, .inputWord, .gotoWord, .exitWord,
    .nopWord, .letWord]

def spelling : Keyword → String
  | .ifWord => "IF"
  | .whileWord => "WHILE"
  | .thenWord => "THEN"
  | .elseWord => "ELSE"
  | .printWord => "PRINT"
  | .inputWord => "INPUT"
  | .gotoWord => "GOTO"
  | .exitWord => "EXIT"
  | .nopWord => "NOP"
  | .letWord => "LET"

/-- The reserved word with a given spelling; upper and lower case differ. -/
def ofSpelling? (s : String) : Option Keyword := all.find? fun k => k.spelling == s

/-- Reserved words are told apart by their spellings. -/
theorem ofSpelling?_spelling (k : Keyword) : ofSpelling? k.spelling = some k := by
  cases k <;> decide

end Keyword

/-- The kinds of tokens. -/
inductive TokenKind where
  | int
  | float
  | string
  | bool
  | ident
  | op
  | newline
  | eof
  | keyword (k : Keyword)
  /-- A kind that no text is scanned to; a token made by hand may have it. -/
  | other (name : String)
  deriving DecidableEq, Repr

namespace TokenKind

/-- The name of a kind; a reserved word is its own kind. -/
def name : TokenKind → String
  | .int => "INT"
  | .float => "FLOAT"
  | .string => "STRING"
  | .bool => "BOOL"
  | .ident => "IDENT"
  | .op => "OP"
  | .newline => "NEWLINE"
  | .eof => "EOF"
  | .keyword k => k.spelling
  | .other s => s

def ofName : String → TokenKind
  | "INT" => .int
  | "FLOAT" => .float
  | "STRING" => .string
  | "BOOL" => .bool
  | "IDENT" => .ident
  | "OP" => .op
  | "NEWLINE" => .newline
  | "EOF" => .eof
  | s =>
    match Keyword.ofSpelling? s with
    | some k => .keyword k
    | none => .other s

end TokenKind

/-- A token: its kind, its text and where it starts.  The text of a string is what it denotes;
the text of any other token is its spelling. -/
structure Token where
  kind : TokenKind
  text : String
  pos : Pos
  deriving DecidableEq, Repr

namespace Token

/-- How messages refer to a token. -/
def describe (t : Token) : String :=
  match t.kind with
  | .newline => "end of line"
  | .eof => "end of input"
  | .string => Text.quoted t.text
  | _ => "'" ++ t.text ++ "'"

/-- All fields of a token on one line. -/
def shown (t : Token) : String :=
  "Token(" ++ t.kind.name ++ ", " ++ Text.quoted t.text ++ ", " ++ toString t.pos.line ++ ", " ++
    toString t.pos.col ++ ")"

def isEof (t : Token) : Bool := t.kind == .eof

end Token

end GotoBasic
