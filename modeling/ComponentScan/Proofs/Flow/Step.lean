import ComponentScan.Flow.Search
import ComponentScan.Proofs.Flow.Returns

/-! # One step of the search

The search treats the three kinds of goals alike.  A goal either is a UI element at sight
or enters one node (`entrance?`); from there it leads to other goals (`goalsOf`).  Only
functions touch the memo: it is asked first (`Memo.known?`), the scan of the function is
written down before its goals are searched (`Memo.enter`), and the result behind them
(`Memo.leave`).  `search_move` says this once, as the five ways in which a search with a
budget left goes on; what holds of every search is proved by cases on it.
-/
namespace ComponentScan

namespace Memo

/-- What is known about a goal. -/
def known? (memo : Memo) : Goal → Option Bool
  | .function function => memo.result? function
  | _ => none

/-- The memo with which the goals behind `goal` are searched. -/
def enter (memo : Memo) : Goal → Memo
  | .function function => memo.scan function
  | _ => memo

/-- The memo after the goals behind `goal` ended with `outcome`; `cuts` is the number of
cuts before. -/
def leave (memo : Memo) (cuts : Nat) (outcome : Outcome) : Goal → Memo
  | .function function => memo.store function cuts outcome
  | _ => memo

@[simp] theorem cuts_cut (memo : Memo) : memo.cut.cuts = memo.cuts + 1 := rfl

@[simp] theorem cuts_enter (memo : Memo) (goal : Goal) : (memo.enter goal).cuts = memo.cuts := by
  cases goal <;> rfl

@[simp] theorem results_enter (memo : Memo) (goal : Goal) :
    (memo.enter goal).results = memo.results := by
  cases goal <;> rfl

@[simp] theorem cuts_leave (memo : Memo) (cuts : Nat) (outcome : Outcome) (goal : Goal) :
    (memo.leave cuts outcome goal).cuts = memo.cuts := by
  cases goal with
  | function f =>
    cases outcome <;> simp only [leave, store]
    split <;> rfl
  | _ => rfl

end Memo

namespace Tree

/-! ## Entering a goal -/

/-- The node that the search enters at a goal; none if the goal is a UI element at
sight. -/
def entrance? (t : Tree) : Goal → Option Nat
  | .success => none
  | .value expression =>
    if t.isElement (t.unwrap expression) then none else some (t.value (t.unwrap expression))
  | .function function => some function

theorem entrance?_value_eq_some {t : Tree} {e v : Nat} : t.entrance? (.value e) = some v ↔
    t.isElement (t.unwrap e) = false ∧ t.value (t.unwrap e) = v := by
  cases h : t.isElement (t.unwrap e) <;> simp [entrance?, h]

/-- What a goal leads to. -/
def goalsOf (t : Tree) : Goal → Except MissingChild (List Goal)
  | .success => .ok []
  | .value expression => t.valueGoals (t.unwrap expression) (t.value (t.unwrap expression))
  | .function function => t.functionGoals function

theorem isElement_eq_false_of_construct {t : Tree} {n : Nat} (helement : t.construct n ≠ .element)
    (hcall : t.construct n ≠ .call) : t.isElement n = false := by
  unfold isElement
  split <;> simp_all

/-- An expression leads somewhere only if its value is a node of the table. -/
theorem lt_size_of_mem_valueGoals {t : Tree} {e v : Nat} {goals : List Goal} {g : Goal}
    (h : t.valueGoals e v = .ok goals) (hg : g ∈ goals) : v < t.size := by
  refine lt_size_of_construct fun hother => ?_
  have helement : t.isElement v = false :=
    isElement_eq_false_of_construct (by simp [hother]) (by simp [hother])
  simp [valueGoals, hother, helement] at h
  simp [h] at hg

/-- A function leads somewhere only if it is a node of the table. -/
theorem lt_size_of_mem_functionGoals {t : Tree} {f : Nat} {goals : List Goal} {g : Goal}
    (h : t.functionGoals f = .ok goals) (hg : g ∈ goals) : f < t.size := by
  by_cases harrow : t.construct f = .arrowFunction
  · exact lt_size_of_construct (by simp [harrow])
  · simp only [functionGoals, harrow, if_false] at h
    cases h
    obtain ⟨r, v, howns, -, -⟩ := mem_returnGoals.mp hg
    exact howns.lt_size

/-- Only nodes of the table lead anywhere. -/
theorem lt_size_of_mem_goalsOf {t : Tree} {goal : Goal} {n : Nat} {goals : List Goal} {g : Goal}
    (hentry : t.entrance? goal = some n) (h : t.goalsOf goal = .ok goals) (hg : g ∈ goals) :
    n < t.size := by
  cases goal with
  | success => cases hentry
  | value e =>
    obtain ⟨-, rfl⟩ := entrance?_value_eq_some.mp hentry
    exact lt_size_of_mem_valueGoals h hg
  | function f =>
    exact Option.some.inj hentry ▸ lt_size_of_mem_functionGoals h hg

/-! ## The ways on -/

/-- How a search from `goal` goes on when chains may still get `budget` goals longer. -/
inductive Move (t : Tree) (budget : Nat) (entered : List Nat) (goal : Goal) (memo : Memo) :
    Outcome × Memo → Prop
  /-- The goal is a UI element at sight. -/
  | sight : t.entrance? goal = none → Move t budget entered goal memo (.reached, memo)
  /-- The goal is a function whose result is known. -/
  | known {result : Bool} : memo.known? goal = some result →
      Move t budget entered goal memo (.ofBool result, memo)
  /-- The chain has entered the node of the goal already. -/
  | cut {n : Nat} : t.entrance? goal = some n → n ∈ entered →
      Move t budget entered goal memo (.unreached, memo.cut)
  /-- A child is missing at the node of the goal. -/
  | malformed {n : Nat} {missing : MissingChild} : t.entrance? goal = some n → n ∉ entered →
      t.goalsOf goal = .error missing →
      Move t budget entered goal memo (.malformed missing, memo.enter goal)
  /-- The goals behind the node are searched. -/
  | expand {n : Nat} {goals : List Goal} {outcome : Outcome} {after : Memo} :
      t.entrance? goal = some n → n ∉ entered → t.goalsOf goal = .ok goals →
      searchAny (t.search budget (n :: entered)) goals (memo.enter goal) = (outcome, after) →
      Move t budget entered goal memo (outcome, after.leave memo.cuts outcome goal)

/-- **Every search with a budget left makes one of the five moves.** -/
theorem search_move (t : Tree) (budget : Nat) (entered : List Nat) (goal : Goal) (memo : Memo) :
    t.Move budget entered goal memo (t.search (budget + 1) entered goal memo) := by
  cases goal with
  | success => exact .sight rfl
  | value e =>
    rw [search]
    split
    · next helement => exact .sight (by simp [entrance?, helement])
    · next helement =>
      have hentry : t.entrance? (.value e) = some (t.value (t.unwrap e)) := by
        simp [entrance?, helement]
      dsimp only
      split
      · exact .cut hentry ‹_›
      · split
        · exact .malformed hentry ‹_› ‹_›
        · exact .expand hentry ‹_› ‹_› rfl
  | function f =>
    rw [search]
    split
    · exact .known ‹_›
    · split
      · exact .cut rfl ‹_›
      · split
        · exact .malformed rfl ‹_› ‹_›
        · exact .expand rfl ‹_› ‹_› rfl

/-- The counter of cuts never goes back along the goals of a list. -/
theorem cuts_le_searchAny {search : Goal → Memo → Outcome × Memo}
    (hsearch : ∀ goal memo, memo.cuts ≤ (search goal memo).2.cuts) (goals : List Goal)
    (memo : Memo) : memo.cuts ≤ (searchAny search goals memo).2.cuts := by
  fun_induction searchAny search goals memo with
  | case1 memo => exact Nat.le_refl _
  | case2 goal goals memo after h ih =>
    have := hsearch goal memo
    rw [h] at this
    exact Nat.le_trans this ih
  | case3 goal goals memo => exact hsearch goal memo

/-- The counter of cuts never goes back. -/
theorem cuts_le_search (t : Tree) (budget : Nat) (entered : List Nat) (goal : Goal)
    (memo : Memo) : memo.cuts ≤ (t.search budget entered goal memo).2.cuts := by
  induction budget generalizing entered goal memo with
  | zero => exact Nat.le_refl _
  | succ budget ih =>
    have hmove := t.search_move budget entered goal memo
    generalize t.search (budget + 1) entered goal memo = ended at hmove ⊢
    cases hmove with
    | sight | known | malformed => simp
    | cut => simp
    | @expand n goals outcome after _ _ _ hany =>
      have hle := cuts_le_searchAny (ih (n :: entered)) goals (memo.enter goal)
      simpa [hany] using hle

end Tree

end ComponentScan
