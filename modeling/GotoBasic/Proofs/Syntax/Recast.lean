import GotoBasic.Line.Parser

/-!
# Tokens and trees with other contents

What stands in a string and how an identifier is called is no syntax, and nobody asks where a line
feed stands.  `Token.recast` gives tokens other contents in these three respects, `Line.recast`
gives them to the trees that come of the tokens, and `ParseError.recast` to the errors.
-/

namespace GotoBasic

/-- Other contents for tokens. -/
structure Recast where
  /-- What stands in a string instead. -/
  text : String → String
  /-- What an identifier is called instead. -/
  name : String → String
  /-- Where a line feed stands instead. -/
  feed : Pos → Pos

/-- Other texts in strings and other names, with everything in its place. -/
def Recast.contents (text name : String → String) : Recast := ⟨text, name, id⟩

/-! ## Tokens and trees -/

/-- The token with other contents. -/
def Token.recast (ρ : Recast) (t : Token) : Token :=
  match t.kind with
  | .string => { t with text := ρ.text t.text }
  | .ident => { t with text := ρ.name t.text }
  | .newline => { t with pos := ρ.feed t.pos }
  | _ => t

/-- The expression with other contents in its strings and other names for its variables. -/
def Expr.recast (ρ : Recast) : Expr → Expr
  | .string pos s => .string pos (ρ.text s)
  | .var pos x => .var pos (ρ.name x)
  | .unary pos op e => .unary pos op (e.recast ρ)
  | .binary pos op l r => .binary pos op (l.recast ρ) (r.recast ρ)
  | e => e

/-- The label with another name. -/
def Label.recast (ρ : Recast) : Label → Label
  | .num n => .num n
  | .name s => .name (ρ.name s)

/-- The statement with other contents, at the same positions. -/
def Stmt.recast (ρ : Recast) : Stmt → Stmt
  | .print pos e => .print pos (e.recast ρ)
  | .input pos x => .input pos (ρ.name x)
  | .assign pos x e => .assign pos (ρ.name x) (e.recast ρ)
  | .ifThen pos c s => .ifThen pos (c.recast ρ) (s.recast ρ)
  | .ifElse pos c s o => .ifElse pos (c.recast ρ) (s.recast ρ) (o.recast ρ)
  | .whileThen pos c s => .whileThen pos (c.recast ρ) (s.recast ρ)
  | .goto pos target => .goto pos (target.map (Label.recast ρ))
  | .nop pos => .nop pos
  | .exit pos => .exit pos
  | .unknown pos => .unknown pos

/-- The line with other contents, at the same position. -/
def Line.recast (ρ : Recast) (l : Line) : Line :=
  ⟨l.pos, l.label.map (Label.recast ρ), l.stmts.map (Stmt.recast ρ)⟩

/-- A colon is wanted behind the other name. -/
def Wanted.recast (ρ : Recast) : Wanted → Wanted
  | .colonAfter l => .colonAfter (ρ.name l)
  | w => w

/-- The error at the token with other contents. -/
def ParseError.recast (ρ : Recast) : ParseError → ParseError
  | .expected w t => .expected (w.recast ρ) (t.recast ρ)
  | .integerTooLong t => .integerTooLong (t.recast ρ)
  | .malformedFloat t => .malformedFloat (t.recast ρ)

/-- The stream of the tokens with other contents. -/
def TokenStream.recast (ρ : Recast) (s : TokenStream) : TokenStream :=
  ⟨s.pending.map (Token.recast ρ), s.last.recast ρ⟩

variable {ρ : Recast}

namespace Token

/-- The kind of a token is not among its contents. -/
@[simp] theorem kind_recast (t : Token) : (t.recast ρ).kind = t.kind := by
  unfold recast
  split
  · rfl
  · rfl
  · rfl
  · rfl

/-- Only strings, identifiers and line feeds get other contents. -/
theorem recast_eq_self {t : Token} (string : t.kind ≠ .string) (ident : t.kind ≠ .ident)
    (newline : t.kind ≠ .newline) : t.recast ρ = t := by
  unfold recast
  split
  next kind => exact absurd kind string
  next kind => exact absurd kind ident
  next kind => exact absurd kind newline
  · rfl

/-- The text of a string is contents. -/
theorem recast_of_string {t : Token} (kind : t.kind = .string) :
    t.recast ρ = { t with text := ρ.text t.text } := by
  unfold recast
  rw [kind]

/-- The text of an identifier is contents. -/
theorem recast_of_ident {t : Token} (kind : t.kind = .ident) :
    t.recast ρ = { t with text := ρ.name t.text } := by
  unfold recast
  rw [kind]

/-- Only line feeds are moved. -/
theorem pos_recast {t : Token} (newline : t.kind ≠ .newline) : (t.recast ρ).pos = t.pos := by
  unfold recast
  split
  · rfl
  · rfl
  next kind => exact absurd kind newline
  · rfl

/-- Symbols are told by their text only where the text stays. -/
@[simp] theorem isSymbol_recast (t : Token) (symbol : String) :
    (t.recast ρ).isSymbol symbol = t.isSymbol symbol := by
  unfold recast isSymbol
  split
  next kind => simp [kind]
  next kind => simp [kind]
  · rfl
  · rfl

/-- An operator is told by kind and text, which are not its contents. -/
theorem binaryOp?_recast (t : Token) (tier : BinaryOp → Bool) :
    (t.recast ρ).binaryOp? tier = t.binaryOp? tier := by
  by_cases kind : t.kind = .op
  · rw [recast_eq_self (by simp [kind]) (by simp [kind]) (by simp [kind])]
  · simp [binaryOp?, kind]

theorem unaryOp?_recast (t : Token) : (t.recast ρ).unaryOp? = t.unaryOp? := by
  by_cases kind : t.kind = .op
  · rw [recast_eq_self (by simp [kind]) (by simp [kind]) (by simp [kind])]
  · simp [unaryOp?, kind]

end Token

/-- Positions of trees stay. -/
@[simp] theorem Expr.pos_recast (e : Expr) : (e.recast ρ).pos = e.pos := by
  cases e <;> rfl

namespace TokenStream

/-- The next token is the one with other contents. -/
@[simp] theorem current_recast (s : TokenStream) :
    (s.recast ρ).current = s.current.recast ρ := by
  obtain ⟨pending, last⟩ := s
  cases pending <;> rfl

@[simp] theorem rest_recast (s : TokenStream) : (s.recast ρ).rest = s.rest.recast ρ := by
  obtain ⟨pending, last⟩ := s
  cases pending <;> rfl

@[simp] theorem bound_recast (s : TokenStream) : (s.recast ρ).bound = s.bound := by
  simp [bound, recast]

/-- The end of input has no contents. -/
theorem ofTokens_recast (ts : List Token) :
    ofTokens (ts.map (Token.recast ρ)) = (ofTokens ts).recast ρ := by
  have isEof (t : Token) : (t.recast ρ).isEof = t.isEof := by simp [Token.isEof]
  have final : Token.recast ρ ⟨.eof, "", Pos.start⟩ = ⟨.eof, "", Pos.start⟩ := rfl
  unfold ofTokens recast
  simp only [List.takeWhile_map, List.find?_map, Function.comp_def, isEof]
  cases ts.find? Token.isEof with
  | none => simp [final]
  | some t => rfl

end TokenStream

/-! ## Single contents -/

/-- If line feeds keep their positions, errors do. -/
theorem ParseError.pos_recast_contents (text name : String → String) (e : ParseError) :
    (e.recast (.contents text name)).pos = e.pos := by
  have token (t : Token) : (t.recast (.contents text name)).pos = t.pos := by
    unfold Token.recast
    split
    · rfl
    · rfl
    · rfl
    · rfl
  cases e with
  | expected w t => exact token t
  | integerTooLong t => exact token t
  | malformedFloat t => exact token t

-- Trees do not hold line feeds.
section Feeds

variable {feed : Pos → Pos}

/-- Trees hold no line feeds, so new positions for these leave every tree as it is. -/
theorem Expr.recast_feed (e : Expr) : e.recast ⟨id, id, feed⟩ = e := by
  induction e with
  | unary pos op e ih => rw [Expr.recast, ih]
  | binary pos op l r ihl ihr => rw [Expr.recast, ihl, ihr]
  | _ => rfl

theorem Label.recast_feed (l : Label) : l.recast ⟨id, id, feed⟩ = l := by
  cases l <;> rfl

theorem Label.map_recast_feed (l : Option Label) :
    l.map (Label.recast ⟨id, id, feed⟩) = l := by
  cases l with
  | none => rfl
  | some l => exact congrArg some l.recast_feed

theorem Stmt.recast_feed (s : Stmt) : s.recast ⟨id, id, feed⟩ = s := by
  induction s with
  | print pos e => rw [Stmt.recast, e.recast_feed]
  | assign pos x e => exact congrArg (Stmt.assign pos x) e.recast_feed
  | ifThen pos c s ih => rw [Stmt.recast, c.recast_feed, ih]
  | ifElse pos c s o ih ih' => rw [Stmt.recast, c.recast_feed, ih, ih']
  | whileThen pos c s ih => rw [Stmt.recast, c.recast_feed, ih]
  | goto pos target => rw [Stmt.recast, Label.map_recast_feed]
  | _ => rfl

theorem Line.recast_feed (l : Line) : l.recast ⟨id, id, feed⟩ = l := by
  have stmts : l.stmts.map (Stmt.recast ⟨id, id, feed⟩) = l.stmts :=
    (List.map_congr_left fun s _ => s.recast_feed).trans l.stmts.map_id
  rw [Line.recast, Label.map_recast_feed, stmts]

theorem Line.map_recast_feed (ls : List Line) : ls.map (Line.recast ⟨id, id, feed⟩) = ls :=
  (List.map_congr_left fun l _ => l.recast_feed).trans ls.map_id

end Feeds

end GotoBasic
