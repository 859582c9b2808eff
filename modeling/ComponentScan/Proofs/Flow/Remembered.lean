import ComponentScan.Proofs.Flow.Reachability
import ComponentScan.Proofs.Flow.Rescans

/-! # What the memo holds

Results are written into the memo in the middle of a search, deep inside a chain of calls and
with other results already in use.  Nevertheless each of them is about the function alone: a
search of its own, with nothing entered and nothing known, would find the same
(`entries_hold_for_fresh_search`).

While a search goes on, its memo holds barren failures only (`Sound`).  Successes are written
when it ends, one for each function on the chain that reached a UI element; from each of these
functions the element can be reached.  So at every moment the memo is truthful: it says of a
function that it fails only if the function is barren, and that it succeeds only if a UI
element can be reached (`Truthful`).
-/
namespace ComponentScan

/-- A result that is new after a goal was left is the one of the goal. -/
theorem Memo.mem_results_leave {memo : Memo} {cuts f : Nat} {outcome : Outcome} {goal : Goal}
    {b : Bool} (h : (f, b) ∈ (memo.leave cuts outcome goal).results) :
    (f, b) ∈ memo.results ∨ goal = .function f ∧ outcome = .ofBool b := by
  cases goal with
  | success | value => exact .inl h
  | function g =>
    cases outcome with
    | reached =>
      rcases List.mem_cons.mp h with heq | h
      · cases heq
        exact .inr ⟨rfl, rfl⟩
      · exact .inl h
    | unreached =>
      simp only [leave, store] at h
      split at h
      · rcases List.mem_cons.mp h with heq | h
        · cases heq
          exact .inr ⟨rfl, rfl⟩
        · exact .inl h
      · exact .inl h
    | malformed | exhausted => exact .inl h

namespace Tree

/-- The result is one of the goal alone: no chain has a say in it. -/
def Settles (t : Tree) (goal : Goal) : Bool → Prop
  | true => ∃ z, t.Reaches goal z ∧ t.Succeeds z
  | false => t.Barren goal

/-- All results of a memo are about functions, and no chain has a say in them. -/
def Truthful (t : Tree) (memo : Memo) : Prop :=
  ∀ f b, (f, b) ∈ memo.results → t.IsFunctionNode f ∧ t.Settles (.function f) b

/-- What holds of the memo while a search goes on. -/
structure Reliable (t : Tree) (memo : Memo) : Prop where
  /-- It holds barren failures only. -/
  sound : t.Sound memo
  truthful : t.Truthful memo

theorem reliable_empty (t : Tree) : t.Reliable {} :=
  ⟨t.sound_empty, nofun⟩

section Searches
variable {t : Tree} {budget n : Nat} {entered : List Nat} {goal g : Goal} {goals : List Goal}
  {memo before : Memo}

theorem Truthful.enter (h : t.Truthful memo) (goal : Goal) : t.Truthful (memo.enter goal) := by
  intro f b hmem
  exact h f b (by simpa using hmem)

theorem Reliable.enter (h : t.Reliable memo) (goal : Goal) : t.Reliable (memo.enter goal) :=
  ⟨h.sound.enter goal, h.truthful.enter goal⟩

/-! ## One search after the other -/

/-- From a reliable memo, the search leaves a truthful one behind, and a reliable one if it
fails. -/
def Upholds (t : Tree) (search : Goal → Memo → Outcome × Memo) : Prop :=
  ∀ goal memo, t.IsProper goal → t.Reliable memo → (search goal memo).1 ≠ .exhausted →
    t.Truthful (search goal memo).2 ∧
      ((search goal memo).1 = .unreached → t.Reliable (search goal memo).2)

/-- A goal is tried with a reliable memo. -/
theorem Tries.reliable {search : Goal → Memo → Outcome × Memo}
    (htries : Tries search goals memo g before) (hsearch : t.Upholds search)
    (hproper : ∀ g ∈ goals, t.IsProper g) (hmemo : t.Reliable memo) : t.Reliable before := by
  induction htries with
  | first => exact hmemo
  | @next f g goals memo after before hfail _ ih =>
    have hf := hsearch f memo (hproper f (List.mem_cons_self ..)) hmemo (by simp [hfail])
    rw [hfail] at hf
    exact ih (fun g hg => hproper g (List.mem_cons_of_mem _ hg)) (hf.2 rfl)

theorem truthful_searchAny {search : Goal → Memo → Outcome × Memo} (hsearch : t.Upholds search)
    (hproper : ∀ g ∈ goals, t.IsProper g) (hmemo : t.Reliable memo)
    (hne : (searchAny search goals memo).1 ≠ .exhausted) :
    t.Truthful (searchAny search goals memo).2 := by
  fun_induction searchAny search goals memo with
  | case1 => exact hmemo.truthful
  | case2 goal goals memo after hfail ih =>
    have hgoal := hsearch goal memo (hproper goal (List.mem_cons_self ..)) hmemo (by simp [hfail])
    rw [hfail] at hgoal
    exact ih (fun g hg => hproper g (List.mem_cons_of_mem _ hg)) (hgoal.2 rfl) hne
  | case3 goal goals memo =>
    exact (hsearch goal memo (hproper goal (List.mem_cons_self ..)) hmemo hne).1

/-- What a proper goal leads to is proper. -/
theorem isProper_of_mem_goalsOf (hproper : t.IsProper goal) (hentry : t.entrance? goal = some n)
    (hgoals : t.goalsOf goal = .ok goals) : ∀ g ∈ goals, t.IsProper g :=
  fun _ hg => (leads_of_mem_goalsOf hproper hentry hgoals hg).isProper

/-- **From a reliable memo, every search leaves a truthful one behind.** -/
theorem upholds_search (t : Tree) (budget : Nat) (entered : List Nat) :
    t.Upholds (t.search budget entered) := by
  induction budget generalizing entered with
  | zero => exact fun _ _ _ _ hne => absurd rfl hne
  | succ budget ih =>
    intro goal memo hproper hmemo hne
    have hagrees := search_agrees hmemo.sound hne
    suffices htruthful : t.Truthful (t.search (budget + 1) entered goal memo).2 from
      ⟨htruthful, fun hfail => ⟨hagrees.sound hfail, htruthful⟩⟩
    have hmove := t.search_move budget entered goal memo
    generalize t.search (budget + 1) entered goal memo = ended at hmove hne hagrees ⊢
    cases hmove with
    | sight | known | cut => exact hmemo.truthful
    | malformed => exact hmemo.truthful.enter goal
    | @expand n goals outcome after hentry hn hgoals hany =>
      have hlist := truthful_searchAny (ih (n :: entered))
        (isProper_of_mem_goalsOf hproper hentry hgoals) (hmemo.enter goal) (by rw [hany]; exact hne)
      rw [hany] at hlist
      intro f b hmem
      rcases Memo.mem_results_leave hmem with hold | ⟨rfl, rfl⟩
      · exact hlist f b hold
      · -- the result is that of the plain search from the function
        refine ⟨hproper, ?_⟩
        cases b with
        | true =>
          have hplain : t.plainSearch entered (.function f) = .ok true := hagrees.answer.symm
          exact exists_of_plainSearch hproper hplain nofun
        | false => exact (hagrees.sound rfl f false hmem).2

/-! ## Every moment -/

/-- Every call begins with a truthful memo and leaves one behind. -/
theorem truthful_of_mem_calls {call : Call} (h : call ∈ t.calls budget entered goal memo)
    (hproper : t.IsProper goal) (hmemo : t.Reliable memo)
    (hne : (t.search budget entered goal memo).1 ≠ .exhausted) :
    t.Truthful call.subject.2 ∧ t.Truthful (t.ending call).2 := by
  induction budget generalizing entered goal memo with
  | zero => cases h
  | succ budget ih =>
    obtain ⟨inner, hcalls, hmove⟩ := t.call_move budget entered goal memo
    rw [hcalls] at h
    rcases List.mem_cons.mp h with rfl | h
    · exact ⟨hmemo.truthful, (t.upholds_search _ _ goal memo hproper hmemo hne).1⟩
    · generalize t.search (budget + 1) entered goal memo = ended at hmove hne
      cases hmove with
      | @expand n goals outcome after _ hentry _ hgoals hany =>
        -- the call is one of those made for some goal, tried with a memo that is still reliable
        obtain ⟨g, before, htries, hcall⟩ := mem_callsAny.mp h
        have hgoalsProper := isProper_of_mem_goalsOf hproper hentry hgoals
        have hbefore := htries.reliable (t.upholds_search _ _) hgoalsProper (hmemo.enter goal)
        refine ih hcall (hgoalsProper g htries.mem) hbefore fun hexhausted => hne ?_
        have hall := searchAny_exhausted_iff.mpr ⟨g, before, htries, hexhausted⟩
        rwa [hany] at hall
      | _ => cases h

end Searches

/-- A goal from which a search is started. -/
inductive Asks (t : Tree) : Goal → Prop
  /-- Whether an expression is a UI element. -/
  | value (n : Nat) : Asks t (.value n)
  /-- Whether the function that decides about a node returns one. -/
  | returns {f n : Nat} : t.Decides f n → Asks t (.function f)

/-- The memo at some moment of a search from scratch: a call begins or ends.  Results are
written only when a call ends. -/
def HeldDuring (t : Tree) (goal : Goal) (memo : Memo) : Prop :=
  ∃ call ∈ t.callsFrom goal, memo = call.subject.2 ∨ memo = (t.ending call).2

section Fresh
variable {t : Tree} {goal : Goal} {memo : Memo} {k : Nat}

theorem Asks.isProper (h : t.Asks goal) : t.IsProper goal := by
  cases h with
  | value => trivial
  | returns hf => exact hf.isFunctionNode

theorem HeldDuring.truthful (h : t.HeldDuring goal memo) (hasks : t.Asks goal) :
    t.Truthful memo := by
  obtain ⟨call, hcall, hmemo⟩ := h
  obtain ⟨hbegin, hend⟩ := truthful_of_mem_calls hcall hasks.isProper t.reliable_empty
    (t.searchFrom_ne_exhausted goal)
  rcases hmemo with rfl | rfl
  · exact hbegin
  · exact hend

theorem mayReturnElement_eq (h : t.IsFunctionNode k) :
    t.mayReturnElement k = t.plainSearch [] (.function k) := by
  simp only [mayReturnElement, decidingFunction?_of_isFunctionNode h, toExcept_searchFrom]

/-- From where a UI element can be reached, the plain search does not fail. -/
theorem plainSearch_of_settles (h : t.Settles goal true) : t.plainSearch [] goal ≠ .ok false := by
  obtain ⟨z, hreaches, hsucceeds⟩ := h
  intro hfail
  exact not_succeeds_of_reaches hfail hreaches hsucceeds

end Fresh

/-- **What the memo holds is what a fresh search finds.**  Whatever is asked, at every moment
of the search, the results in the memo are results of functions.  If a function is said to
fail, then the analysis of the function alone answers `false`; if it is said to succeed, then
the analysis answers `true` or complains about a missing child. -/
theorem entries_hold_for_fresh_search {t : Tree} {goal : Goal} {memo : Memo} {k : Nat}
    (hasks : t.Asks goal) (hheld : t.HeldDuring goal memo) :
    (∀ b, memo.result? k = some b → t.IsFunctionNode k) ∧
    (memo.result? k = some false → t.mayReturnElement k = .ok false) ∧
    (memo.result? k = some true →
      t.mayReturnElement k = .ok true ∨ ∃ missing, t.mayReturnElement k = .error missing) := by
  have htruthful := hheld.truthful hasks
  have hentry {b : Bool} (h : memo.result? k = some b) :=
    htruthful k b (Memo.mem_results_of_result? h)
  refine ⟨fun b h => (hentry h).1, fun h => ?_, fun h => ?_⟩
  · obtain ⟨hfunction, hbarren⟩ := hentry h
    rw [mayReturnElement_eq hfunction]
    exact hbarren []
  · obtain ⟨hfunction, hreaches⟩ := hentry h
    have hne := plainSearch_of_settles hreaches
    rw [mayReturnElement_eq hfunction]
    rcases hplain : t.plainSearch [] (.function k) with missing | _ | _
    · exact .inr ⟨missing, rfl⟩
    · exact absurd hplain hne
    · exact .inl rfl

/-- The tree of
`function f(){return c?g():<b/>}function g(){return c?f():h()}function h(){return c}`. -/
def helperInCycle : Tree :=
  Table.toTree {
    source := Utf8.encode ("function f()\x7breturn c?g():<b/>\x7d" ++
      "function g()\x7breturn c?f():h()\x7dfunction h()\x7breturn c\x7d")
    nodes := #[
      ⟨.program, none, 0, 83, none, true⟩,
      ⟨.functionDeclaration, some 0, 0, 31, none, true⟩,
      ⟨.identifier, some 1, 9, 10, some .name, true⟩,
      ⟨.formalParameters, some 1, 10, 12, some .parameters, true⟩,
      ⟨.statementBlock, some 1, 12, 31, some .body, true⟩,
      ⟨.returnStatement, some 4, 13, 30, none, true⟩,
      ⟨.ternaryExpression, some 5, 20, 30, none, true⟩,
      ⟨.identifier, some 6, 20, 21, some (.other "condition"), true⟩,
      ⟨.callExpression, some 6, 22, 25, some .consequence, true⟩,
      ⟨.identifier, some 8, 22, 23, some .function, true⟩,
      ⟨.arguments, some 8, 23, 25, some .arguments, true⟩,
      ⟨.jsxSelfClosingElement, some 6, 26, 30, some .alternative, true⟩,
      ⟨.identifier, some 11, 27, 28, some .name, true⟩,
      ⟨.functionDeclaration, some 0, 31, 61, none, true⟩,
      ⟨.identifier, some 13, 40, 41, some .name, true⟩,
      ⟨.formalParameters, some 13, 41, 43, some .parameters, true⟩,
      ⟨.statementBlock, some 13, 43, 61, some .body, true⟩,
      ⟨.returnStatement, some 16, 44, 60, none, true⟩,
      ⟨.ternaryExpression, some 17, 51, 60, none, true⟩,
      ⟨.identifier, some 18, 51, 52, some (.other "condition"), true⟩,
      ⟨.callExpression, some 18, 53, 56, some .consequence, true⟩,
      ⟨.identifier, some 20, 53, 54, some .function, true⟩,
      ⟨.arguments, some 20, 54, 56, some .arguments, true⟩,
      ⟨.callExpression, some 18, 57, 60, some .alternative, true⟩,
      ⟨.identifier, some 23, 57, 58, some .function, true⟩,
      ⟨.arguments, some 23, 58, 60, some .arguments, true⟩,
      ⟨.functionDeclaration, some 0, 61, 83, none, true⟩,
      ⟨.identifier, some 26, 70, 71, some .name, true⟩,
      ⟨.formalParameters, some 26, 71, 73, some .parameters, true⟩,
      ⟨.statementBlock, some 26, 73, 83, some .body, true⟩,
      ⟨.returnStatement, some 29, 74, 82, none, true⟩,
      ⟨.identifier, some 30, 81, 82, none, true⟩]
    nonempty := by decide
    ordered := by decide }

/-- When the search from `f` ends, the memo holds the failure of `h`, which was called inside
`f` and `g`, and the success of `f`; but nothing about `g`, where a cut happened. -/
theorem helper_is_remembered_in_cycle :
    (helperInCycle.searchFrom (.function 1)).2.result? 13 = none ∧
    helperInCycle.mayReturnElement 26 = .ok false ∧
    (helperInCycle.mayReturnElement 1 = .ok true ∨
      ∃ missing, helperInCycle.mayReturnElement 1 = .error missing) := by
  have hasks : helperInCycle.Asks (.function 1) :=
    .returns (n := 1) (decidingFunction?_eq_some_iff.mp (by decide +kernel))
  have hheld : helperInCycle.HeldDuring (.function 1)
      (helperInCycle.searchFrom (.function 1)).2 :=
    ⟨_, List.mem_cons_self .., .inr rfl⟩
  exact ⟨by decide +kernel,
    (entries_hold_for_fresh_search hasks hheld).2.1 (by decide +kernel),
    (entries_hold_for_fresh_search hasks hheld).2.2 (by decide +kernel)⟩

end Tree

end ComponentScan
