import GotoBasic.Expr.Eval
import Mathlib.Tactic.Linarith

/-!
# Integer expressions are exact

Integer literals, variables that hold integers, negation, sums, differences, products and whole
quotients make up the integral expressions.  Such an expression denotes a mathematical integer
(`Expr.Denotes`), however large it or any part of it is, unless it divides by zero.

* `Expr.divisions` lists the whole divisions of an expression in the order in which they are
  carried out: those of the left operand, those of the right operand, the division itself.
* `Expr.eval_integral` says that evaluating an integral expression gives the integer that it
  denotes, or else fails at the first of these divisions whose divisor denotes zero.
-/

namespace GotoBasic

/-! ## Whole quotients -/

/-- The integer `q` is the quotient of `a` and `b` without its fraction: what remains of `a` is
smaller than `b` and has the sign of `a`, if it is not zero. -/
def IsQuotient (a b q : Int) : Prop :=
  ∃ r, a = q * b + r ∧ r.natAbs < b.natAbs ∧ (r = 0 ∨ r.sign = a.sign)

variable {a b q : Int}

theorem IsQuotient.divisor_ne_zero (quotient : IsQuotient a b q) : b ≠ 0 := by
  rcases quotient with ⟨r, -, small, -⟩
  intro zero
  rw [zero, Int.natAbs_zero] at small
  exact Nat.not_lt_zero _ small

theorem IsQuotient.eq_tdiv (quotient : IsQuotient a b q) : q = a.tdiv b := by
  have nonzero := quotient.divisor_ne_zero
  rcases quotient with ⟨r, whole, small, sign⟩
  have sum : r + b * q = a := by
    rw [whole, Int.mul_comm b q, Int.add_comm]
  by_cases negative : a < 0
  · have remainder : r ≤ 0 := by
      rcases sign with zero | sign
      · exact Int.le_of_eq zero
      · rw [Int.sign_eq_neg_one_of_neg negative, Int.sign_eq_neg_one_iff_neg] at sign
        exact Int.le_of_lt sign
    have unique := Int.tdiv_tmod_unique' (q := q) (r := r) (Int.le_of_lt negative) nonzero
    exact (unique.2 ⟨sum, by omega, remainder⟩).1.symm
  · have remainder : 0 ≤ r := by
      rcases sign with zero | sign
      · exact Int.le_of_eq zero.symm
      · rw [← Int.sign_nonneg_iff, sign, Int.sign_nonneg_iff]
        exact Int.not_lt.1 negative
    have unique := Int.tdiv_tmod_unique (q := q) (r := r) (Int.not_lt.1 negative) nonzero
    exact (unique.2 ⟨sum, remainder, by omega⟩).1.symm

theorem IsQuotient.unique {q' : Int} (left : IsQuotient a b q) (right : IsQuotient a b q') :
    q = q' := left.eq_tdiv.trans right.eq_tdiv.symm

/-- The quotient of the magnitudes of two integers, negative if exactly one of the two is. -/
def signedQuotient (a b : Int) : Int :=
  let q : Int := (a.natAbs / b.natAbs : Nat)
  if decide (a < 0) ≠ decide (b < 0) then -q else q

theorem isQuotient_signedQuotient (nonzero : b ≠ 0) : IsQuotient a b (signedQuotient a b) := by
  have division : (b.natAbs : Int) * (a.natAbs / b.natAbs : Nat) + (a.natAbs % b.natAbs : Nat) =
      a.natAbs := by
    exact_mod_cast Nat.div_add_mod a.natAbs b.natAbs
  have small : a.natAbs % b.natAbs < b.natAbs := Nat.mod_lt _ (Int.natAbs_pos.2 nonzero)
  have whole : a.natAbs % b.natAbs ≤ a.natAbs := Nat.mod_le _ _
  have dividend : (a.natAbs : Int) = if a < 0 then -a else a := by omega
  have divisor : (b.natAbs : Int) = if b < 0 then -b else b := by omega
  unfold signedQuotient
  generalize a.natAbs / b.natAbs = q at division ⊢
  generalize a.natAbs % b.natAbs = r at division small whole ⊢
  rw [dividend, divisor] at division
  refine ⟨if a < 0 then -r else r, ?_, by omega, by grind⟩
  by_cases below : a < 0 <;> by_cases negative : b < 0 <;>
    simp [below, negative] at division ⊢ <;> linarith

/-- The whole quotient of two integers goes by their magnitudes and their signs. -/
theorem Value.arithInt_quot (nonzero : b ≠ 0) :
    arithInt .quot a b = .ok (.int (signedQuotient a b)) := by
  rw [(isQuotient_signedQuotient nonzero).eq_tdiv]
  rfl

/-! ## Integral expressions -/

namespace Expr

variable {env : Env} {e : Expr}

/-- An expression in which everything is an integer. -/
inductive Integral (env : Env) : Expr → Prop
  | int (pos : Pos) (n : Int) : Integral env (.int pos n)
  | var (pos : Pos) {x : String} {n : Int} (bound : env.get? x = some (.int n)) :
      Integral env (.var pos x)
  | neg (pos : Pos) {e : Expr} (operand : Integral env e) : Integral env (.unary pos .neg e)
  | arith (pos : Pos) {op : ArithOp} {l r : Expr} (whole : op ≠ .div) (left : Integral env l)
      (right : Integral env r) : Integral env (.binary pos (.arith op) l r)

/-- The integer that an expression denotes.  A whole division by zero denotes nothing. -/
inductive Denotes (env : Env) : Expr → Int → Prop
  | int (pos : Pos) (n : Int) : Denotes env (.int pos n) n
  | var (pos : Pos) {x : String} {n : Int} (bound : env.get? x = some (.int n)) :
      Denotes env (.var pos x) n
  | neg (pos : Pos) {e : Expr} {a : Int} (operand : Denotes env e a) :
      Denotes env (.unary pos .neg e) (-a)
  | add (pos : Pos) {l r : Expr} {a b : Int} (left : Denotes env l a) (right : Denotes env r b) :
      Denotes env (.binary pos (.arith .add) l r) (a + b)
  | sub (pos : Pos) {l r : Expr} {a b : Int} (left : Denotes env l a) (right : Denotes env r b) :
      Denotes env (.binary pos (.arith .sub) l r) (a - b)
  | mul (pos : Pos) {l r : Expr} {a b : Int} (left : Denotes env l a) (right : Denotes env r b) :
      Denotes env (.binary pos (.arith .mul) l r) (a * b)
  | quot (pos : Pos) {l r : Expr} {a b q : Int} (left : Denotes env l a)
      (right : Denotes env r b) (quotient : IsQuotient a b q) :
      Denotes env (.binary pos (.arith .quot) l r) q

theorem Denotes.unique {n n' : Int} (left : e.Denotes env n) (right : e.Denotes env n') :
    n = n' := by
  induction left generalizing n' with
  | int pos n =>
    cases right
    rfl
  | var pos bound =>
    cases right with
    | var _ bound' =>
      rw [bound] at bound'
      cases bound'
      rfl
  | neg pos operand ih =>
    cases right with
    | neg _ operand' => rw [ih operand']
  | add pos left right ih ih' =>
    cases right with
    | add _ left' right' => rw [ih left', ih' right']
  | sub pos left right ih ih' =>
    cases right with
    | sub _ left' right' => rw [ih left', ih' right']
  | mul pos left right ih ih' =>
    cases right with
    | mul _ left' right' => rw [ih left', ih' right']
  | quot pos left right quotient ih ih' =>
    cases right with
    | quot _ left' right' quotient' =>
      rw [← ih left', ← ih' right'] at quotient'
      exact quotient.unique quotient'

/-- A whole division in an expression: where it stands, and what it divides by. -/
structure Division where
  pos : Pos
  divisor : Expr
  deriving DecidableEq, Repr

/-- The whole divisions of an expression in the order in which they are carried out. -/
def divisions : Expr → List Division
  | .unary _ _ e => e.divisions
  | .binary pos op l r =>
    l.divisions ++ (r.divisions ++ if op = .arith .quot then [⟨pos, r⟩] else [])
  | _ => []

/-- The divisor denotes an integer other than zero. -/
def Division.Sound (env : Env) (d : Division) : Prop :=
  ∃ b, d.divisor.Denotes env b ∧ b ≠ 0

/-- The division is the first of some that divides by zero. -/
structure FirstByZero (env : Env) (ds : List Division) (d : Division) : Prop where
  zero : d.divisor.Denotes env 0
  sound : ∃ front back, ds = front ++ d :: back ∧ ∀ d' ∈ front, d'.Sound env

variable {ds ds' : List Division} {d : Division}

theorem Division.Sound.ne_zero (sound : d.Sound env) : ¬ d.divisor.Denotes env 0 := by
  intro zero
  rcases sound with ⟨b, denotes, nonzero⟩
  exact nonzero (denotes.unique zero)

theorem FirstByZero.mem (first : FirstByZero env ds d) : d ∈ ds := by
  rcases first.sound with ⟨front, back, rfl, -⟩
  exact List.mem_append_right front List.mem_cons_self

theorem FirstByZero.append (first : FirstByZero env ds d) (ds' : List Division) :
    FirstByZero env (ds ++ ds') d := by
  rcases first.sound with ⟨front, back, rfl, sound⟩
  exact ⟨first.zero, front, back ++ ds', by simp, sound⟩

theorem FirstByZero.behind (sound : ∀ d ∈ ds, d.Sound env) (first : FirstByZero env ds' d) :
    FirstByZero env (ds ++ ds') d := by
  rcases first.sound with ⟨front, back, rfl, sound'⟩
  exact ⟨first.zero, ds ++ front, back, by simp, List.forall_mem_append.2 ⟨sound, sound'⟩⟩

/-! ## Evaluation -/

/-- What becomes of an integral expression: its value is the integer that it denotes, and it has
one since no division is by zero, or the first division by zero ends the evaluation. -/
inductive Evaluated (env : Env) (e : Expr) : Except Fault Value → Prop
  | value {n : Int} (denotes : e.Denotes env n) (sound : ∀ d ∈ e.divisions, d.Sound env) :
      Evaluated env e (.ok (.int n))
  | byZero {d : Division} (first : FirstByZero env e.divisions d) :
      Evaluated env e (.error ⟨.divisionByZero, d.pos⟩)

theorem eval_binary_arith (pos : Pos) (op : ArithOp) (l r : Expr) :
    (Expr.binary pos (.arith op) l r).eval env =
      (do
        let v ← l.eval env
        let w ← r.eval env
        Cause.locate pos (Value.binary (.arith op) v w)) := rfl

/-- An operator on the integers that its operands denote. -/
theorem evaluated_arith {pos : Pos} {op : ArithOp} {l r : Expr} {a b : Int} (whole : op ≠ .div)
    (left : l.Denotes env a) (right : r.Denotes env b) (sound : ∀ d ∈ l.divisions, d.Sound env)
    (sound' : ∀ d ∈ r.divisions, d.Sound env) :
    Evaluated env (.binary pos (.arith op) l r)
      (Cause.locate pos (Value.binary (.arith op) (.int a) (.int b))) := by
  have both : ∀ d ∈ l.divisions ++ r.divisions, d.Sound env :=
    List.forall_mem_append.2 ⟨sound, sound'⟩
  have all (other : op ≠ .quot) :
      ∀ d ∈ (Expr.binary pos (.arith op) l r).divisions, d.Sound env := by
    simpa [divisions, other] using both
  cases op with
  | add => exact .value (.add pos left right) (all (by decide))
  | sub => exact .value (.sub pos left right) (all (by decide))
  | mul => exact .value (.mul pos left right) (all (by decide))
  | div => exact absurd rfl whole
  | quot =>
    have last : (Expr.binary pos (.arith .quot) l r).divisions =
        (l.divisions ++ r.divisions) ++ [⟨pos, r⟩] := by simp [divisions]
    by_cases zero : b = 0
    · subst zero
      have first : FirstByZero env [⟨pos, r⟩] ⟨pos, r⟩ := ⟨right, [], [], rfl, by simp⟩
      refine .byZero (d := ⟨pos, r⟩) ?_
      rw [last]
      exact first.behind both
    · rw [Value.binary_arith_int .quot a zero, Value.arithInt_quot zero]
      refine .value (.quot pos left right (isQuotient_signedQuotient zero)) ?_
      rw [last]
      exact List.forall_mem_append.2 ⟨both, List.forall_mem_singleton.2 ⟨b, right, zero⟩⟩

/-- Evaluation computes denotations, from left to right. -/
theorem Integral.evaluated (integral : Integral env e) : Evaluated env e (e.eval env) := by
  induction integral with
  | int pos n => exact .value (.int pos n) (List.forall_mem_nil _)
  | @var pos x n bound =>
    have value : (Expr.var pos x).eval env = .ok (.int n) := by
      rw [eval, bound]
    rw [value]
    exact .value (.var pos bound) (List.forall_mem_nil _)
  | @neg pos e operand ih =>
    rw [eval]
    generalize e.eval env = result at ih
    cases ih with
    | value denotes sound => exact .value (.neg pos denotes) sound
    | byZero first => exact .byZero first
  | @arith pos op l r whole left right ih ih' =>
    rw [eval_binary_arith]
    generalize l.eval env = result at ih
    generalize r.eval env = result' at ih'
    cases ih with
    | byZero first => exact .byZero (first.append _)
    | value denotes sound =>
      cases ih' with
      | byZero first => exact .byZero ((first.append _).behind sound)
      | value denotes' sound' => exact evaluated_arith whole denotes denotes' sound sound'

/-- Evaluating an integral expression is exact.  If no whole division in it is by zero, its value
is the one integer that it denotes.  Otherwise the first division by zero ends the evaluation, and
the fault stands where this division does. -/
theorem eval_integral (integral : Integral env e) :
    ((∀ d ∈ e.divisions, d.Sound env) →
      ∃ n, (∀ m, e.Denotes env m ↔ m = n) ∧ e.eval env = .ok (.int n)) ∧
    (¬ (∀ d ∈ e.divisions, d.Sound env) →
      ∃ d, FirstByZero env e.divisions d ∧ e.eval env = .error ⟨.divisionByZero, d.pos⟩ ∧
        Fault.message ⟨.divisionByZero, d.pos⟩ = "division by zero" ++ d.pos.suffix) := by
  have evaluated := integral.evaluated
  generalize e.eval env = result at evaluated
  cases evaluated with
  | @value n denotes sound =>
    have only (m : Int) : e.Denotes env m ↔ m = n := by
      constructor
      · intro denotes'
        exact denotes'.unique denotes
      · intro same
        rw [same]
        exact denotes
    exact ⟨fun _ => ⟨n, only, rfl⟩, fun unsound => absurd sound unsound⟩
  | @byZero d first =>
    have unsound : ¬ ∀ d ∈ e.divisions, d.Sound env := by
      intro sound
      exact (sound d first.mem).ne_zero first.zero
    exact ⟨fun sound => absurd sound unsound, fun _ => ⟨d, first, rfl, rfl⟩⟩

/-- A negative dividend, and a divisor that is zero since its own quotient drops the fraction. -/
theorem eval_integral_nested :
    let env : Env := [("x", .int (-7))]
    let half : Expr := .binary ⟨1, 1⟩ (.arith .quot) (.var ⟨1, 1⟩ "x") (.int ⟨1, 5⟩ 2)
    let part : Expr := .binary ⟨1, 14⟩ (.arith .quot) (.int ⟨1, 14⟩ 3) (.int ⟨1, 18⟩ 4)
    let whole : Expr := .binary ⟨1, 1⟩ (.arith .add) half
      (.binary ⟨1, 9⟩ (.arith .quot) (.int ⟨1, 9⟩ 5) part)
    half.Integral env ∧ half.Denotes env (-3) ∧ half.eval env = .ok (.int (-3)) ∧
      whole.Integral env ∧ whole.eval env = .error ⟨.divisionByZero, ⟨1, 9⟩⟩ := by
  intro env half part whole
  have bound : env.get? "x" = some (.int (-7)) := rfl
  have integralHalf : half.Integral env := .arith _ (by decide) (.var _ bound) (.int _ _)
  have integralPart : part.Integral env := .arith _ (by decide) (.int _ _) (.int _ _)
  have integral : whole.Integral env :=
    .arith _ (by decide) integralHalf (.arith _ (by decide) (.int _ _) integralPart)
  have minusThree : half.Denotes env (-3) :=
    .quot _ (.var _ bound) (.int _ _) ⟨-1, by decide, by decide, by decide⟩
  have zero : part.Denotes env 0 :=
    .quot _ (.int _ _) (.int _ _) ⟨3, by decide, by decide, by decide⟩
  have soundHalf : ∀ d ∈ half.divisions, d.Sound env :=
    List.forall_mem_singleton.2 ⟨2, .int _ _, by decide⟩
  have soundPart : Division.Sound env ⟨⟨1, 14⟩, .int ⟨1, 18⟩ 4⟩ := ⟨4, .int _ _, by decide⟩
  have unsound : ¬ ∀ d ∈ whole.divisions, d.Sound env := by
    intro sound
    exact (sound ⟨⟨1, 9⟩, part⟩ (by decide)).ne_zero zero
  rcases (eval_integral integralHalf).1 soundHalf with ⟨n, only, value⟩
  rcases (eval_integral integral).2 unsound with ⟨d, first, fault, -⟩
  have same : -3 = n := (only _).1 minusThree
  have place : d = ⟨⟨1, 9⟩, part⟩ := by
    rcases List.mem_cons.1 first.mem with rfl | mem
    · exact absurd first.zero (soundHalf _ List.mem_cons_self).ne_zero
    rcases List.mem_cons.1 mem with rfl | mem
    · exact absurd first.zero soundPart.ne_zero
    · exact List.mem_singleton.1 mem
  rw [← same] at value
  rw [place] at fault
  exact ⟨integralHalf, minusThree, value, integral, fault⟩

end Expr

end GotoBasic
