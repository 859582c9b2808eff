import ComponentScan.Proofs.Flow.Plain

/-! # The memo changes no answer

The search with a memo gives the same answers as the search without one.  What has to be
shown is that a remembered failure is a failure of the plain search too, whatever chain
leads to it (`Barren`).  The counter of cuts sees to that: where no cut happened, the
chain had no say in the failure.  Failures that were looked up on the way are barren
themselves, so they need not count as cuts.

Successes need no such care.  The first one ends the whole search, so that none is ever
looked up: as long as a search goes on, its memo holds barren failures only (`Sound`).
-/
namespace ComponentScan

/-- A known result stands in the memo. -/
theorem Memo.mem_results_of_result? {memo : Memo} {f : Nat} {b : Bool}
    (h : memo.result? f = some b) : (f, b) ∈ memo.results := by
  obtain ⟨_, _, hsplit, _⟩ := List.lookup_eq_some_iff.mp h
  rw [hsplit]
  simp

namespace Tree

/-- A goal from which the plain search fails, whatever the chain has entered. -/
def Barren (t : Tree) (goal : Goal) : Prop :=
  ∀ entered, t.plainSearch entered goal = .ok false

/-- All results of a memo are failures, and of barren functions. -/
def Sound (t : Tree) (memo : Memo) : Prop :=
  ∀ f b, (f, b) ∈ memo.results → b = false ∧ t.Barren (.function f)

theorem sound_empty (t : Tree) : t.Sound {} := by
  intro f b h
  cases h

/-- A goal is barren if all that it leads to is. -/
theorem barren_of_goals {t : Tree} {goal : Goal} {n : Nat} {goals : List Goal}
    (hentry : t.entrance? goal = some n) (hgoals : t.goalsOf goal = .ok goals)
    (h : ∀ g ∈ goals, t.Barren g) : t.Barren goal := by
  intro entered
  by_cases hn : n ∈ entered
  · exact plainSearch_cut hentry hn
  · rw [plainSearch_expand hentry hn hgoals]
    exact anyM_eq_false_iff.mpr fun g hg => h g hg _

/-- A goal whose result a sound memo knows is barren. -/
theorem Sound.barren_of_known {t : Tree} {memo : Memo} (hmemo : t.Sound memo) {goal : Goal}
    {result : Bool} (h : memo.known? goal = some result) : result = false ∧ t.Barren goal := by
  cases goal with
  | success | value => cases h
  | function f => exact hmemo f result (Memo.mem_results_of_result? h)

theorem Sound.enter {t : Tree} {memo : Memo} (hmemo : t.Sound memo) (goal : Goal) :
    t.Sound (memo.enter goal) := by
  intro f b h
  exact hmemo f b (by simpa using h)

/-- Remembering a failure keeps the memo sound if the goal is barren or some cut
happened. -/
theorem Sound.leave {t : Tree} {memo : Memo} (hmemo : t.Sound memo) {cuts : Nat} {goal : Goal}
    (h : memo.cuts = cuts → t.Barren goal) : t.Sound (memo.leave cuts .unreached goal) := by
  cases goal with
  | success | value => exact hmemo
  | function f =>
    simp only [Memo.leave, Memo.store]
    split
    · next hcuts =>
      intro f' b hmem
      rcases List.mem_cons.mp hmem with heq | hmem
      · cases heq
        exact ⟨rfl, h hcuts⟩
      · exact hmemo f' b hmem
    · exact hmemo

/-! ## Agreement -/

/-- A search that started with `memo` ended as the plain one, which answers `answer`; and
if it failed, it left a sound memo, and without a cut it showed that `barren` holds. -/
structure Agrees (t : Tree) (answer : Except MissingChild Bool) (barren : Prop) (memo : Memo)
    (ended : Outcome × Memo) : Prop where
  answer : ended.1.toExcept = answer
  sound : ended.1 = .unreached → t.Sound ended.2
  barren : ended.1 = .unreached → ended.2.cuts = memo.cuts → barren

/-- Agreement goal by goal is agreement on a list of goals. -/
theorem searchAny_agrees {t : Tree} {entered : List Nat}
    {search : Goal → Memo → Outcome × Memo}
    (hcuts : ∀ goal memo, memo.cuts ≤ (search goal memo).2.cuts)
    (hsearch : ∀ goal memo, t.Sound memo → (search goal memo).1 ≠ .exhausted →
      t.Agrees (t.plainSearch entered goal) (t.Barren goal) memo (search goal memo))
    (goals : List Goal) (memo : Memo) (hmemo : t.Sound memo)
    (hne : (searchAny search goals memo).1 ≠ .exhausted) :
    t.Agrees (goals.anyM (t.plainSearch entered)) (∀ g ∈ goals, t.Barren g) memo
      (searchAny search goals memo) := by
  fun_induction searchAny search goals memo with
  | case1 memo => exact ⟨rfl, fun _ => hmemo, fun _ _ => by simp⟩
  | case2 goal goals memo after hended ih =>
    have hgoal := hsearch goal memo hmemo (by simp [hended])
    have hle : memo.cuts ≤ after.cuts := by simpa [hended] using hcuts goal memo
    have hle' := cuts_le_searchAny hcuts goals after
    rw [hended] at hgoal
    obtain ⟨hanswer, hsound, hbarren⟩ := ih (hgoal.sound rfl) hne
    refine ⟨?_, hsound, ?_⟩
    · rw [hanswer, anyM_cons_false hgoal.answer.symm]
    · -- no cut over all goals means no cut at the first and none at the others
      intro hout hsame
      have hfirst : after.cuts = memo.cuts := by omega
      have hothers : (searchAny search goals after).2.cuts = after.cuts := by omega
      intro g hg
      rcases List.mem_cons.mp hg with rfl | hg
      · exact hgoal.barren rfl hfirst
      · exact hbarren hout hothers g hg
  | case3 goal goals memo hfail =>
    have hgoal := hsearch goal memo hmemo hne
    rcases hended : search goal memo with ⟨outcome, after⟩
    rw [hended] at hgoal hne
    cases outcome with
    | unreached => exact absurd hended (hfail after)
    | exhausted => exact absurd rfl hne
    | reached => exact ⟨(anyM_cons_true hgoal.answer.symm).symm, by simp, by simp⟩
    | malformed missing => exact ⟨(anyM_cons_error hgoal.answer.symm).symm, by simp, by simp⟩

/-- **Starting from a sound memo, a search that does not run out of its budget agrees with
the plain one.** -/
theorem search_agrees {t : Tree} {budget : Nat} {entered : List Nat} {goal : Goal} {memo : Memo}
    (hmemo : t.Sound memo) (hne : (t.search budget entered goal memo).1 ≠ .exhausted) :
    t.Agrees (t.plainSearch entered goal) (t.Barren goal) memo
      (t.search budget entered goal memo) := by
  induction budget generalizing entered goal memo with
  | zero => exact absurd rfl hne
  | succ budget ih =>
    have hmove := t.search_move budget entered goal memo
    generalize t.search (budget + 1) entered goal memo = ended at hmove hne ⊢
    cases hmove with
    | sight hentry => exact ⟨(plainSearch_sight hentry).symm, by simp, by simp⟩
    | @known result hknown =>
      obtain ⟨rfl, hbarren⟩ := hmemo.barren_of_known hknown
      exact ⟨(hbarren entered).symm, fun _ => hmemo, fun _ _ => hbarren⟩
    | cut hentry hn =>
      refine ⟨(plainSearch_cut hentry hn).symm, fun _ => hmemo, fun _ hcuts => ?_⟩
      simp at hcuts
    | malformed hentry hn hgoals =>
      exact ⟨(plainSearch_malformed hentry hn hgoals).symm, by simp, by simp⟩
    | @expand n goals outcome after hentry hn hgoals hany =>
      have hlist := searchAny_agrees (t.cuts_le_search budget (n :: entered))
        (fun _ _ hmemo hne => ih hmemo hne) goals (memo.enter goal) (hmemo.enter goal)
        (by rw [hany]; exact hne)
      rw [hany] at hlist
      -- without a cut every goal behind this one is barren, and so this one is
      have hbarren (hout : outcome = .unreached) (hcuts : after.cuts = memo.cuts) :
          t.Barren goal :=
        barren_of_goals hentry hgoals (hlist.barren hout (by simpa using hcuts))
      refine ⟨?_, ?_, ?_⟩
      · rw [plainSearch_expand hentry hn hgoals]
        exact hlist.answer
      · rintro rfl
        exact (hlist.sound rfl).leave (hbarren rfl)
      · intro hout hcuts
        exact hbarren hout (by simpa using hcuts)

/-- A search from scratch answers as the plain one. -/
theorem toExcept_searchFrom (t : Tree) (goal : Goal) :
    (t.searchFrom goal).1.toExcept = t.plainSearch [] goal :=
  (search_agrees t.sound_empty (t.searchFrom_ne_exhausted goal)).answer

/-- **The memo never changes an answer.**  Asked about any node of any tree, the analysis
with a memo gives the Boolean or the complaint that the analysis without one gives. -/
theorem memo_changes_no_answer (t : Tree) (n : Nat) :
    t.mayBeElement n = t.plainMayBeElement n ∧
      t.mayReturnElement n = t.plainMayReturnElement n := by
  refine ⟨t.toExcept_searchFrom _, ?_⟩
  unfold mayReturnElement plainMayReturnElement
  cases t.decidingFunction? n with
  | none => rfl
  | some f => exact t.toExcept_searchFrom _

end Tree

end ComponentScan
