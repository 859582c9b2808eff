import ComponentScan.Proofs.Flow.Step
import ComponentScan.Proofs.Guard

/-! # The budget is enough

The search for a UI element is a recursion under a guard (`searchRecursion`).  A goal enters
its node and then tries the goals behind it, each with the memo that the ones before have
left, until one does not fail.  Only nodes of the table lead to further goals.  So a search
whose budget exceeds the number of nodes left never runs out of it (`search_ne_exhausted`),
and what it finds does not depend on the budget (`search_add`).
-/
namespace ComponentScan.Tree

/-- Trying a list of goals comes to the goal `g` with the memo `before`: the goals in front
of it have failed. -/
inductive Tries (search : Goal → Memo → Outcome × Memo) :
    List Goal → Memo → Goal → Memo → Prop
  | first {g : Goal} {goals : List Goal} {memo : Memo} : Tries search (g :: goals) memo g memo
  | next {f g : Goal} {goals : List Goal} {memo after before : Memo} :
      search f memo = (.unreached, after) → Tries search goals after g before →
      Tries search (f :: goals) memo g before

theorem Tries.mem {search : Goal → Memo → Outcome × Memo} {goals : List Goal}
    {memo before : Memo} {g : Goal} (h : Tries search goals memo g before) : g ∈ goals := by
  induction h with
  | first => exact List.mem_cons_self ..
  | next _ _ ih => exact List.mem_cons_of_mem _ ih

/-- Trying a list of goals exhausts the budget where one of the goals tried does. -/
theorem searchAny_exhausted_iff {search : Goal → Memo → Outcome × Memo} {goals : List Goal}
    {memo : Memo} : (searchAny search goals memo).1 = .exhausted ↔
      ∃ g before, Tries search goals memo g before ∧ (search g before).1 = .exhausted := by
  constructor
  · intro h
    fun_induction searchAny search goals memo with
    | case1 => cases h
    | case2 goal goals memo after hfail ih =>
      obtain ⟨g, before, htries, hg⟩ := ih h
      exact ⟨g, before, .next hfail htries, hg⟩
    | case3 goal goals memo => exact ⟨goal, memo, .first, h⟩
  · rintro ⟨g, before, htries, hg⟩
    induction htries with
    | @first g goals memo =>
      rw [searchAny]
      split
      · next after hended => rw [hended] at hg; cases hg
      · exact hg
    | next hfail _ ih => rw [searchAny, hfail, ih hg]

/-- One search makes another: it enters its node, comes to the other goal among those behind
it, and has one less to go on. -/
inductive SearchNests (t : Tree) : Activation (Goal × Memo) → Activation (Goal × Memo) → Prop
  | goal {budget n : Nat} {entered : List Nat} {goal g : Goal} {memo before : Memo}
      {goals : List Goal} : memo.known? goal = none → t.entrance? goal = some n → n ∉ entered →
      t.goalsOf goal = .ok goals →
      Tries (t.search budget (n :: entered)) goals (memo.enter goal) g before →
      SearchNests t ⟨budget + 1, entered, goal, memo⟩ ⟨budget, n :: entered, g, before⟩

section Moves
variable {t : Tree} {budget n : Nat} {entered : List Nat} {goal : Goal} {memo : Memo}

theorem search_known {result : Bool} (h : memo.known? goal = some result) :
    t.search (budget + 1) entered goal memo = (.ofBool result, memo) := by
  cases goal with
  | success | value => cases h
  | function f =>
    rw [search]
    simp only [show memo.result? f = some result from h]

/-- A goal about which nothing is known is searched by way of the goals behind it. -/
theorem search_expand {goals : List Goal} (hknown : memo.known? goal = none)
    (hentry : t.entrance? goal = some n) (hfresh : n ∉ entered)
    (hgoals : t.goalsOf goal = .ok goals) :
    t.search (budget + 1) entered goal memo =
      let ended := searchAny (t.search budget (n :: entered)) goals (memo.enter goal)
      (ended.1, ended.2.leave memo.cuts ended.1 goal) := by
  cases goal with
  | success => cases hentry
  | value e =>
    obtain ⟨helement, rfl⟩ := entrance?_value_eq_some.mp hentry
    rw [search]
    simp only [helement, hfresh, show t.valueGoals _ _ = .ok goals from hgoals,
      Bool.false_eq_true, if_false]
    rfl
  | function f =>
    cases hentry
    rw [search]
    simp only [show memo.result? n = none from hknown, hfresh,
      show t.functionGoals n = .ok goals from hgoals, if_false]
    rfl

/-- A search exhausts its budget exactly if one that it makes exhausts what is left. -/
theorem search_exhausted_iff :
    (t.search (budget + 1) entered goal memo).1 = .exhausted ↔
      ∃ b, t.SearchNests ⟨budget + 1, entered, goal, memo⟩ b ∧
        (t.search b.budget b.entered b.subject.1 b.subject.2).1 = .exhausted := by
  constructor
  · intro h
    cases hknown : memo.known? goal with
    | some result =>
      rw [search_known hknown] at h
      cases result <;> cases h
    | none =>
      have hmove := t.search_move budget entered goal memo
      generalize t.search (budget + 1) entered goal memo = ended at hmove h
      cases hmove with
      | sight | cut | malformed => cases h
      | @known result hsome => rw [hknown] at hsome; cases hsome
      | @expand n goals outcome after hentry hfresh hgoals hany =>
        have hended : (searchAny (t.search budget (n :: entered)) goals (memo.enter goal)).1 =
            .exhausted := by rw [hany]; exact h
        obtain ⟨g, before, htries, hg⟩ := searchAny_exhausted_iff.mp hended
        exact ⟨_, .goal hknown hentry hfresh hgoals htries, hg⟩
  · rintro ⟨b, hnests, hb⟩
    cases hnests with
    | goal hknown hentry hfresh hgoals htries =>
      rw [search_expand hknown hentry hfresh hgoals]
      exact searchAny_exhausted_iff.mpr ⟨_, _, htries, hb⟩

end Moves

/-- The search as a recursion under a guard. -/
def searchRecursion (t : Tree) : GuardedRecursion t (Goal × Memo) where
  entrance? subject := t.entrance? subject.1
  Nests := t.SearchNests
  Exhausts a := (t.search a.budget a.entered a.subject.1 a.subject.2).1 = .exhausted
  guarded h := by
    cases h with
    | goal _ hentry hfresh hgoals htries =>
      exact ⟨_, hentry, lt_size_of_mem_goalsOf hentry hgoals htries.mem, hfresh, rfl, rfl⟩
  exhausts_iff := by
    rintro ⟨budget, entered, goal, memo⟩
    cases budget with
    | zero => simp [search]
    | succ budget => simpa using search_exhausted_iff

/-- **A budget larger than the number of nodes left is never exhausted.** -/
theorem search_ne_exhausted {t : Tree} {budget : Nat} {entered : List Nat} {goal : Goal}
    {memo : Memo} (h : t.unentered entered < budget) :
    (t.search budget entered goal memo).1 ≠ .exhausted :=
  t.searchRecursion.not_exhausts (a := ⟨budget, entered, goal, memo⟩) h

/-- A search from scratch never runs out of its budget. -/
theorem searchFrom_ne_exhausted (t : Tree) (goal : Goal) :
    (t.searchFrom goal).1 ≠ .exhausted :=
  search_ne_exhausted (by rw [unentered_nil]; exact Nat.lt_succ_self _)

/-! ## A larger budget -/

/-- Lists of goals are tried alike by two searches that agree where the first one does not
exhaust its budget. -/
theorem searchAny_congr {search search' : Goal → Memo → Outcome × Memo} {goals : List Goal}
    {memo : Memo}
    (hagree : ∀ goal memo, (search goal memo).1 ≠ .exhausted → search' goal memo = search goal memo)
    (hne : (searchAny search goals memo).1 ≠ .exhausted) :
    searchAny search' goals memo = searchAny search goals memo := by
  fun_induction searchAny search goals memo with
  | case1 => rfl
  | case2 goal goals memo after hfail ih =>
    rw [searchAny, hagree goal memo (by simp [hfail]), hfail]
    exact ih hne
  | case3 goal goals memo hend =>
    rw [searchAny, hagree goal memo hne]
    split
    · next after hfail => exact absurd hfail (hend after)
    · rfl

/-- A search that does not exhaust its budget gives the same with a larger one. -/
theorem search_add {t : Tree} {budget : Nat} {entered : List Nat} {goal : Goal} {memo : Memo}
    (h : (t.search budget entered goal memo).1 ≠ .exhausted) (extra : Nat) :
    t.search (budget + extra) entered goal memo = t.search budget entered goal memo := by
  induction budget generalizing entered goal memo with
  | zero => exact absurd rfl h
  | succ budget ih =>
    have hany {n : Nat} {goals : List Goal} {memo : Memo}
        (hne : (searchAny (t.search budget (n :: entered)) goals memo).1 ≠ .exhausted) :
        searchAny (t.search (budget + extra) (n :: entered)) goals memo =
          searchAny (t.search budget (n :: entered)) goals memo :=
      searchAny_congr (fun _ _ hgoal => ih hgoal) hne
    rw [show budget + 1 + extra = budget + extra + 1 by omega]
    cases goal with
    | success => rfl
    | value e =>
      simp only [search] at h ⊢
      split
      · rfl
      · split
        · rfl
        · split
          · rfl
          · next helement hfresh _ goals hgoals =>
            simp only [helement, hfresh, hgoals, if_false, Bool.false_eq_true] at h
            exact hany h
    | function f =>
      simp only [search] at h ⊢
      split
      · rfl
      · split
        · rfl
        · split
          · rfl
          · next hknown hfresh _ goals hgoals =>
            simp only [hknown, hfresh, hgoals, if_false] at h
            rw [hany h]

/-- A search from scratch may have any larger budget. -/
theorem search_eq_searchFrom (t : Tree) (goal : Goal) {budget : Nat} (h : t.size < budget) :
    t.search budget [] goal {} = t.searchFrom goal := by
  obtain ⟨extra, rfl⟩ := Nat.exists_eq_add_of_le h
  exact search_add (t.searchFrom_ne_exhausted goal) extra

end ComponentScan.Tree
