import GotoBasic.Token.Lexer

/-!
# Where tokens stand

The tokens of a text stand at increasing positions, so a position tells at most one of them
(`tokenize_nodup_pos`).  Positions are counted character by character, but they say what one
expects: how many line feeds stand before, and how far the last of them is
(`Pos.isAt_afterAll_take`).
-/

namespace GotoBasic

/-- The first position stands before the second in a text. -/
def Pos.Before (p q : Pos) : Prop := p.line < q.line ∨ p.line = q.line ∧ p.col < q.col

namespace Pos

theorem Before.trans {p q r : Pos} (first : p.Before q) (second : q.Before r) : p.Before r := by
  unfold Before at *
  omega

theorem Before.ne {p q : Pos} (before : p.Before q) : p ≠ q := by
  rintro rfl
  unfold Before at before
  omega

theorem before_after (p : Pos) (c : Char) : p.Before (p.after c) := by
  unfold after
  split
  · exact .inl (Int.lt_succ p.line)
  · exact .inr ⟨rfl, Int.lt_succ p.col⟩

/-- What does not stand before the next position stands behind this one. -/
theorem before_of_after {p q : Pos} {c : Char} (behind : q = p.after c ∨ (p.after c).Before q) :
    p.Before q := by
  rcases behind with rfl | before
  · exact p.before_after c
  · exact (p.before_after c).trans before

end Pos

/-! ## Positions and offsets -/

theorem Pos.afterAll_append (p : Pos) (x y : List Char) :
    p.afterAll (x ++ y) = (p.afterAll x).afterAll y := List.foldl_append

/-- The position of the offset `n` of a text.  The line counts the line feeds before the offset;
the column counts from the last of them or, on the first line, from the start of the text. -/
structure Pos.IsAt (p : Pos) (cs : List Char) (n : Nat) : Prop where
  line : p.line = 1 + (cs.take n).count '\n'
  col : ∀ k < n, cs[k]? = some '\n' → (∀ j, k < j → j < n → cs[j]? ≠ some '\n') → p.col = n - k
  first : (∀ k < n, cs[k]? ≠ some '\n') → p.col = n + 1

theorem Pos.isAt_start (cs : List Char) : Pos.start.IsAt cs 0 :=
  ⟨rfl, fun _ below => absurd below (Nat.not_lt_zero _), fun _ => rfl⟩

/-- The position behind a character, from the position of the character. -/
theorem Pos.IsAt.after {p : Pos} {cs : List Char} {n : Nat} {c : Char} (at_ : p.IsAt cs n)
    (here : cs[n]? = some c) : (p.after c).IsAt cs (n + 1) := by
  have count : (cs.take (n + 1)).count '\n' = (cs.take n).count '\n' + [c].count '\n' := by
    rw [List.take_add_one, here, List.count_append]
    rfl
  unfold Pos.after
  by_cases feed : c = '\n'
  · subst feed
    rw [if_pos rfl]
    refine ⟨?_, fun k below found last => ?_, fun none => absurd here (none n (Nat.lt_succ_self n))⟩
    · have one : ['\n'].count '\n' = 1 := rfl
      rw [count, at_.line, one]
      dsimp only
      omega
    · have same : n ≤ k := Nat.le_of_not_lt fun less => last n less (Nat.lt_succ_self n) here
      dsimp only
      omega
  · rw [if_neg feed]
    have other {k : Nat} (found : cs[k]? = some '\n') : k ≠ n := by
      rintro rfl
      rw [here] at found
      exact feed (Option.some.inj found)
    refine ⟨?_, fun k below found last => ?_, fun none => ?_⟩
    · have none : [c].count '\n' = 0 := by rw [List.count_singleton, if_neg (by simpa using feed)]
      rw [count, none]
      exact at_.line
    · have different := other found
      have col := at_.col k (by omega) found fun j above below' => last j above (by omega)
      dsimp only
      omega
    · have col := at_.first fun k below => none k (by omega)
      dsimp only
      omega

theorem Pos.isAt_afterAll_take {cs : List Char} {n : Nat} (inside : n ≤ cs.length) :
    (Pos.start.afterAll (cs.take n)).IsAt cs n := by
  induction n with
  | zero => exact Pos.isAt_start cs
  | succ n ih =>
    have here := List.getElem?_eq_getElem inside
    rw [List.take_add_one, here, Pos.afterAll_append]
    exact (ih (Nat.le_of_succ_le inside)).after here

/-! ## Scanned tokens -/

/-- Scanned tokens stand one behind the other, and none stands before the start of the text. -/
theorem Lexer.scan_increasing {skip : Nat} {pos : Pos} {cs : List Char} {ts : List Token}
    (scanned : scan skip pos cs = .ok ts) :
    (∀ t ∈ ts, t.pos = pos ∨ pos.Before t.pos) ∧
      ts.Pairwise fun t t' => t.pos.Before t'.pos := by
  fun_induction scan skip pos cs generalizing ts with
  | case1 skip pos => cases scanned; simp
  | case2 skip pos c cs ih =>
    obtain ⟨later, increasing⟩ := ih scanned
    exact ⟨fun t mem => .inr (Pos.before_of_after (later t mem)), increasing⟩
  | case3 pos c cs none => cases scanned
  | case4 pos c cs n skipped ih =>
    obtain ⟨later, increasing⟩ := ih scanned
    exact ⟨fun t mem => .inr (Pos.before_of_after (later t mem)), increasing⟩
  | case5 pos c cs kind text n found ts' rest ih =>
    cases scanned
    obtain ⟨later, increasing⟩ := ih rest
    have behind (t : Token) (mem : t ∈ ts') : pos.Before t.pos :=
      Pos.before_of_after (later t mem)
    refine ⟨fun t mem => ?_, List.pairwise_cons.2 ⟨behind, increasing⟩⟩
    rcases List.mem_cons.1 mem with rfl | mem
    · exact .inl rfl
    · exact .inr (behind t mem)
  | case6 pos c cs kind text n found e rest ih => cases scanned

/-- No two tokens of a text stand at the same position. -/
theorem tokenize_nodup_pos {source : String} {ts : List Token}
    (tokens : tokenize source = .ok ts) : (ts.map Token.pos).Nodup := by
  rw [List.Nodup, List.pairwise_map]
  exact (Lexer.scan_increasing tokens).2.imp Pos.Before.ne

end GotoBasic
