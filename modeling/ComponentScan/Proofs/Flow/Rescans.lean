import Mathlib.Data.List.Nodup
import ComponentScan.Proofs.Flow.Budget

/-! # How often a function is scanned

The memo is there so that a function is scanned once, however often the search comes to it.
It does not always achieve that, since a failure is not remembered if a cut happened on the
way.  A function that is part of a cycle, or leads to one, may fail in this way each time, and
then each time the search comes to it, all that it leads to is searched again.

To say this, `calls` lists all searches that a search makes, itself first, in the order in
which they begin.  The functions that they scan are those that the memo has written down
(`scans_search`).  Of the calls that come to one function off their own chain (`visits`), a
call scans the function exactly if all calls before it were inconclusive: they failed, but
with a cut on the way.  So a function is scanned twice exactly if the search comes to it
twice and the first time was inconclusive (`scanned_once_iff`).
-/
namespace ComponentScan

namespace Memo
variable {memo : Memo} {f : Nat} {goal : Goal}

@[simp] theorem scans_leave (memo : Memo) (cuts : Nat) (outcome : Outcome) (goal : Goal) :
    (memo.leave cuts outcome goal).scans = memo.scans := by
  cases goal with
  | function f =>
    cases outcome <;> simp only [leave, store]
    split <;> rfl
  | _ => rfl

@[simp] theorem result?_enter (memo : Memo) (goal : Goal) (f : Nat) :
    (memo.enter goal).result? f = memo.result? f := by
  simp [result?]

/-- What is known about a function changes only when the function itself is left. -/
theorem result?_leave (cuts : Nat) (outcome : Outcome) (h : goal ≠ .function f) :
    (memo.leave cuts outcome goal).result? f = memo.result? f := by
  cases goal with
  | success | value => rfl
  | function g =>
    have hne : (f == g) = false := by
      rw [beq_eq_false_iff_ne]
      rintro rfl
      exact h rfl
    cases outcome <;> simp only [leave, store]
    · simp [result?, List.lookup_cons, hne]
    · split <;> simp [result?, List.lookup_cons, hne]

/-- After a failure the function is known, unless a cut happened. -/
theorem result?_leave_unreached (memo : Memo) (f cuts : Nat) :
    (memo.leave cuts .unreached (.function f)).result? f = none ↔
      memo.cuts ≠ cuts ∧ memo.result? f = none := by
  simp only [leave, store]
  split
  · next h => simp [result?, h]
  · next h => simp [h]

end Memo

namespace Tree

/-! ## The calls of a search -/

/-- A call of the search: a goal, and the memo at that time. -/
abbrev Call := Activation (Goal × Memo)

/-- The calls made for a list of goals: each is tried with the memo that the goals before it
have left, as long as these have failed. -/
def callsAny (search : Goal → Memo → Outcome × Memo) (calls : Goal → Memo → List Call) :
    List Goal → Memo → List Call
  | [], _ => []
  | goal :: goals, memo =>
    calls goal memo ++
      match search goal memo with
      | (.unreached, after) => callsAny search calls goals after
      | _ => []

/-- The calls that a search makes, itself first, in the order in which they begin. -/
def calls (t : Tree) : (budget : Nat) → (entered : List Nat) → Goal → Memo → List Call
  | 0, _, _, _ => []
  | budget + 1, entered, goal, memo =>
    ⟨budget + 1, entered, goal, memo⟩ ::
      match memo.known? goal, t.entrance? goal, t.goalsOf goal with
      | none, some n, .ok goals =>
        if n ∈ entered then []
        else callsAny (t.search budget (n :: entered)) (t.calls budget (n :: entered)) goals
          (memo.enter goal)
      | _, _, _ => []

/-- The calls of a search from scratch. -/
def callsFrom (t : Tree) (goal : Goal) : List Call :=
  t.calls (t.size + 1) [] goal {}

/-- How a call ends. -/
def ending (t : Tree) (call : Call) : Outcome × Memo :=
  t.search call.budget call.entered call.subject.1 call.subject.2

section Any
variable {search : Goal → Memo → Outcome × Memo} {calls : Goal → Memo → List Call}
  {goal : Goal} {goals : List Goal} {memo : Memo}

theorem callsAny_of_unreached {after : Memo} (h : search goal memo = (.unreached, after)) :
    callsAny search calls (goal :: goals) memo =
      calls goal memo ++ callsAny search calls goals after := by
  rw [callsAny, h]

theorem callsAny_of_ended (h : ∀ after, search goal memo ≠ (.unreached, after)) :
    callsAny search calls (goal :: goals) memo = calls goal memo := by
  rw [callsAny]
  split
  · next after hended => exact absurd hended (h after)
  · exact List.append_nil _

/-- The calls made for a list of goals are those of the goals that are tried. -/
theorem mem_callsAny {call : Call} : call ∈ callsAny search calls goals memo ↔
    ∃ g before, Tries search goals memo g before ∧ call ∈ calls g before := by
  constructor
  · intro h
    fun_induction searchAny search goals memo with
    | case1 => cases h
    | case2 goal goals memo after hfail ih =>
      rw [callsAny_of_unreached hfail] at h
      rcases List.mem_append.mp h with h | h
      · exact ⟨goal, memo, .first, h⟩
      · obtain ⟨g, before, htries, hcall⟩ := ih h
        exact ⟨g, before, .next hfail htries, hcall⟩
    | case3 goal goals memo hend =>
      rw [callsAny_of_ended hend] at h
      exact ⟨goal, memo, .first, h⟩
  · rintro ⟨g, before, htries, hcall⟩
    induction htries with
    | first =>
      rw [callsAny]
      exact List.mem_append_left _ hcall
    | next hfail _ ih =>
      rw [callsAny_of_unreached hfail]
      exact List.mem_append_right _ (ih hcall)

end Any

/-- How a call goes on when chains may still get `budget` goals longer, with the calls that it
makes. -/
inductive CallMove (t : Tree) (budget : Nat) (entered : List Nat) (goal : Goal) (memo : Memo) :
    Outcome × Memo → List Call → Prop
  | sight : t.entrance? goal = none → CallMove t budget entered goal memo (.reached, memo) []
  | known {result : Bool} : memo.known? goal = some result →
      CallMove t budget entered goal memo (.ofBool result, memo) []
  | cut {n : Nat} : memo.known? goal = none → t.entrance? goal = some n → n ∈ entered →
      CallMove t budget entered goal memo (.unreached, memo.cut) []
  | malformed {n : Nat} {missing : MissingChild} : memo.known? goal = none →
      t.entrance? goal = some n → n ∉ entered → t.goalsOf goal = .error missing →
      CallMove t budget entered goal memo (.malformed missing, memo.enter goal) []
  | expand {n : Nat} {goals : List Goal} {outcome : Outcome} {after : Memo} :
      memo.known? goal = none → t.entrance? goal = some n → n ∉ entered →
      t.goalsOf goal = .ok goals →
      searchAny (t.search budget (n :: entered)) goals (memo.enter goal) = (outcome, after) →
      CallMove t budget entered goal memo (outcome, after.leave memo.cuts outcome goal)
        (callsAny (t.search budget (n :: entered)) (t.calls budget (n :: entered)) goals
          (memo.enter goal))

/-- Every call makes one of the five moves. -/
theorem call_move (t : Tree) (budget : Nat) (entered : List Nat) (goal : Goal) (memo : Memo) :
    ∃ inner, t.calls (budget + 1) entered goal memo = ⟨budget + 1, entered, goal, memo⟩ :: inner ∧
      t.CallMove budget entered goal memo (t.search (budget + 1) entered goal memo) inner := by
  cases hknown : memo.known? goal with
  | some result =>
    rw [search_known hknown]
    exact ⟨[], by simp [calls, hknown], .known hknown⟩
  | none =>
    have hmove := t.search_move budget entered goal memo
    generalize t.search (budget + 1) entered goal memo = ended at hmove ⊢
    cases hmove with
    | sight hentry => exact ⟨[], by simp [calls, hentry], .sight hentry⟩
    | known hsome => rw [hknown] at hsome; cases hsome
    | cut hentry hn =>
      refine ⟨[], ?_, .cut hknown hentry hn⟩
      cases hgoals : t.goalsOf goal <;> simp [calls, hentry, hn, hknown, hgoals]
    | malformed hentry hn hgoals =>
      exact ⟨[], by simp [calls, hgoals], .malformed hknown hentry hn hgoals⟩
    | expand hentry hn hgoals hany =>
      exact ⟨_, by simp [calls, hknown, hentry, hgoals, hn], .expand hknown hentry hn hgoals hany⟩

/-! ## The functions that are scanned -/

/-- The function that a call scans: it comes to the function, and nothing is known. -/
def scanned? (call : Call) : Option Nat :=
  match call.subject.1 with
  | .function f => if call.subject.2.result? f = none ∧ f ∉ call.entered then some f else none
  | _ => none

section Scans
variable {t : Tree} {budget n : Nat} {entered : List Nat} {goal : Goal} {memo : Memo}

/-- A call that goes past its guard writes down the function that it scans. -/
theorem scans_enter (hknown : memo.known? goal = none) (hentry : t.entrance? goal = some n)
    (hn : n ∉ entered) : (memo.enter goal).scans =
      (scanned? ⟨budget, entered, goal, memo⟩).toList ++ memo.scans := by
  cases goal with
  | success | value => rfl
  | function f =>
    cases hentry
    have hunknown : memo.result? n = none := hknown
    simp [Memo.enter, Memo.scan, scanned?, hunknown, hn]

/-- A list of goals writes down what the goals do. -/
theorem scans_searchAny {search : Goal → Memo → Outcome × Memo}
    {calls : Goal → Memo → List Call}
    (h : ∀ goal memo, (search goal memo).2.scans =
      ((calls goal memo).filterMap scanned?).reverse ++ memo.scans)
    (goals : List Goal) (memo : Memo) : (searchAny search goals memo).2.scans =
      ((callsAny search calls goals memo).filterMap scanned?).reverse ++ memo.scans := by
  fun_induction searchAny search goals memo with
  | case1 => rfl
  | case2 goal goals memo after hfail ih =>
    have hgoal := h goal memo
    rw [hfail] at hgoal
    rw [ih, callsAny_of_unreached hfail, hgoal]
    simp
  | case3 goal goals memo hend => rw [callsAny_of_ended hend, h goal memo]

/-- **The functions that the memo has written down are those that the calls scan**, the
latest first. -/
theorem scans_search (t : Tree) (budget : Nat) (entered : List Nat) (goal : Goal)
    (memo : Memo) : (t.search budget entered goal memo).2.scans =
      ((t.calls budget entered goal memo).filterMap scanned?).reverse ++ memo.scans := by
  induction budget generalizing entered goal memo with
  | zero => rfl
  | succ budget ih =>
    obtain ⟨inner, hcalls, hmove⟩ := t.call_move budget entered goal memo
    rw [hcalls]
    generalize t.search (budget + 1) entered goal memo = ended at hmove ⊢
    cases hmove with
    | sight hentry =>
      cases goal with
      | function f => cases hentry
      | _ => rfl
    | known hknown =>
      cases goal with
      | function f => simp [scanned?, show memo.result? f = some _ from hknown]
      | _ => rfl
    | cut hknown hentry hn =>
      cases goal with
      | function f =>
        cases hentry
        simp [scanned?, hn, Memo.cut]
      | _ => rfl
    | malformed hknown hentry hn hgoals =>
      rw [scans_enter hknown hentry hn]
      cases h : scanned? ⟨budget + 1, entered, goal, memo⟩ <;> simp [h]
    | @expand n goals outcome after hknown hentry hn hgoals hany =>
      have hlist := scans_searchAny (ih (n :: entered)) goals (memo.enter goal)
      rw [hany, scans_enter hknown hentry hn] at hlist
      rw [Memo.scans_leave, hlist]
      cases h : scanned? ⟨budget + 1, entered, goal, memo⟩ <;> simp [h]

end Scans

/-! ## The calls that come to a function -/

/-- The call comes to the function `f`, which is not on its own chain. -/
def ComesTo (f : Nat) (call : Call) : Prop :=
  call.subject.1 = .function f ∧ f ∉ call.entered

instance (f : Nat) : DecidablePred (ComesTo f) :=
  fun call => inferInstanceAs (Decidable (call.subject.1 = .function f ∧ f ∉ call.entered))

/-- The call failed, but with a cut on the way. -/
def Inconclusive (t : Tree) (call : Call) : Prop :=
  (t.ending call).1 = .unreached ∧ (t.ending call).2.cuts ≠ call.subject.2.cuts

/-- The calls of a search from scratch that come to the function `f`. -/
def visits (t : Tree) (goal : Goal) (f : Nat) : List Call :=
  (t.callsFrom goal).filter (ComesTo f)

/-- The course of the calls that come to `f`: nothing is known about `f` at a call exactly if
that was so before all of them (`unknown`), and all calls up to there were inconclusive.
After all of them, `unknown'` says the same. -/
def Course (t : Tree) (f : Nat) : (unknown : Prop) → List Call → (unknown' : Prop) → Prop
  | unknown, [], unknown' => unknown ↔ unknown'
  | unknown, call :: calls, unknown' =>
    (call.subject.2.result? f = none ↔ unknown) ∧
      t.Course f (unknown ∧ t.Inconclusive call) calls unknown'

section Courses
variable {t : Tree} {f n budget : Nat} {entered : List Nat} {goal : Goal} {memo : Memo}
  {p q r : Prop} {l l' : List Call}

theorem Course.append (h : t.Course f p l q) (h' : t.Course f q l' r) :
    t.Course f p (l ++ l') r := by
  induction l generalizing p with
  | nil => rwa [List.nil_append, propext h]
  | cons call l ih => exact ⟨h.1, ih h.2⟩

/-- At each call of a course nothing is known exactly if the calls before were all
inconclusive. -/
theorem Course.unknown_iff {before after : List Call} {call : Call}
    (h : t.Course f p (before ++ call :: after) q) :
    call.subject.2.result? f = none ↔ p ∧ ∀ c ∈ before, t.Inconclusive c := by
  induction before generalizing p with
  | nil => simpa using h.1
  | cons b before ih =>
    rw [ih h.2]
    simp [and_assoc]

/-- The calls that a call makes have the nodes of its chain on theirs. -/
theorem entered_of_mem_calls {call : Call} (h : call ∈ t.calls budget entered goal memo) :
    ∀ m ∈ entered, m ∈ call.entered := by
  induction budget generalizing entered goal memo with
  | zero => cases h
  | succ budget ih =>
    obtain ⟨inner, hcalls, hmove⟩ := t.call_move budget entered goal memo
    generalize t.search (budget + 1) entered goal memo = ended at hmove
    rw [hcalls] at h
    rcases List.mem_cons.mp h with rfl | h
    · exact fun _ hm => hm
    · cases hmove with
      | expand =>
        obtain ⟨g, before, -, hcall⟩ := mem_callsAny.mp h
        exact fun m hm => ih hcall m (List.mem_cons_of_mem _ hm)
      | _ => cases h

/-- A function on the chain is not come to. -/
theorem filter_comesTo_callsAny {goals : List Goal} (hf : f ∈ entered) :
    (callsAny (t.search budget entered) (t.calls budget entered) goals memo).filter (ComesTo f) =
      [] := by
  refine List.filter_eq_nil_iff.mpr fun call hcall => ?_
  obtain ⟨g, before, -, hcall⟩ := mem_callsAny.mp hcall
  have hmem := entered_of_mem_calls hcall f hf
  simp [ComesTo, hmem]

/-- What is known about a function changes along a list of goals only if it does at one of
them. -/
theorem result?_searchAny {search : Goal → Memo → Outcome × Memo}
    (h : ∀ goal memo, (search goal memo).2.result? f = memo.result? f) (goals : List Goal)
    (memo : Memo) : (searchAny search goals memo).2.result? f = memo.result? f := by
  fun_induction searchAny search goals memo with
  | case1 => rfl
  | case2 goal goals memo after hfail ih => rw [ih, ← h goal memo, hfail]
  | case3 goal goals memo => exact h goal memo

/-- What is known about a function does not change while it is on the chain. -/
theorem result?_search (t : Tree) (budget : Nat) (hf : f ∈ entered) (goal : Goal)
    (memo : Memo) : (t.search budget entered goal memo).2.result? f = memo.result? f := by
  induction budget generalizing entered goal memo with
  | zero => rfl
  | succ budget ih =>
    have hmove := t.search_move budget entered goal memo
    generalize t.search (budget + 1) entered goal memo = ended at hmove ⊢
    cases hmove with
    | sight | known | cut => rfl
    | malformed => exact Memo.result?_enter ..
    | @expand n goals outcome after hentry hn _ hany =>
      have hother : goal ≠ .function f := by
        rintro rfl
        cases hentry
        exact hn hf
      have hlist := result?_searchAny (ih (List.mem_cons_of_mem n hf)) goals (memo.enter goal)
      rw [hany] at hlist
      rw [Memo.result?_leave _ _ hother, hlist, Memo.result?_enter]

/-- A call that comes to a function and fails leaves it unknown exactly if it was unknown
before and the call is inconclusive. -/
theorem unknown_after_visit (hf : f ∉ entered)
    (hfail : (t.search (budget + 1) entered (.function f) memo).1 = .unreached) :
    (memo.result? f = none ∧ t.Inconclusive ⟨budget + 1, entered, .function f, memo⟩) ↔
      (t.search (budget + 1) entered (.function f) memo).2.result? f = none := by
  have hmove := t.search_move budget entered (.function f) memo
  unfold Inconclusive ending
  generalize t.search (budget + 1) entered (.function f) memo = ended at hmove hfail ⊢
  cases hmove with
  | sight hentry => cases hentry
  | known hknown => simp [show memo.result? f = some _ from hknown]
  | cut hentry hn =>
    cases hentry
    exact absurd hn hf
  | malformed => cases hfail
  | @expand n goals outcome after hentry hn hgoals hany =>
    cases hentry
    obtain rfl : outcome = .unreached := hfail
    have hself : f ∈ f :: entered := List.mem_cons_self ..
    have hlist := result?_searchAny (t.result?_search budget hself) goals
      (memo.enter (.function f))
    rw [hany, Memo.result?_enter] at hlist
    rw [Memo.cuts_leave, Memo.result?_leave_unreached, ← hlist]
    simp [and_comm]

/-- The calls that come to `f` have a course; and if the search fails, it ends with what is
known then. -/
def Charts (t : Tree) (f : Nat) (memo : Memo) (calls : List Call) (ended : Outcome × Memo) :
    Prop :=
  ∃ unknown', t.Course f (memo.result? f = none) (calls.filter (ComesTo f)) unknown' ∧
    (ended.1 = .unreached → (unknown' ↔ ended.2.result? f = none))

theorem charts_searchAny {search : Goal → Memo → Outcome × Memo}
    {calls : Goal → Memo → List Call}
    (h : ∀ goal memo, t.Charts f memo (calls goal memo) (search goal memo))
    (goals : List Goal) (memo : Memo) :
    t.Charts f memo (callsAny search calls goals memo) (searchAny search goals memo) := by
  fun_induction searchAny search goals memo with
  | case1 memo => exact ⟨_, Iff.rfl, fun _ => Iff.rfl⟩
  | case2 goal goals memo after hfail ih =>
    obtain ⟨p, hfirst, hp⟩ := h goal memo
    obtain ⟨q, hothers, hq⟩ := ih
    rw [hfail] at hp
    rw [← propext (hp rfl)] at hothers
    rw [Charts, callsAny_of_unreached hfail, List.filter_append]
    exact ⟨q, hfirst.append hothers, hq⟩
  | case3 goal goals memo hend =>
    rw [callsAny_of_ended hend]
    exact h goal memo

/-- **What is known about a function, call by call.** -/
theorem charts_search (t : Tree) (f budget : Nat) (entered : List Nat) (goal : Goal)
    (memo : Memo) : t.Charts f memo (t.calls budget entered goal memo)
      (t.search budget entered goal memo) := by
  induction budget generalizing entered goal memo with
  | zero => exact ⟨_, Iff.rfl, nofun⟩
  | succ budget ih =>
    obtain ⟨inner, hcalls, hmove⟩ := t.call_move budget entered goal memo
    by_cases hcome : ComesTo f ⟨budget + 1, entered, goal, memo⟩
    · -- the call comes to `f`, and then `f` is on the chain
      obtain ⟨rfl, hf⟩ : goal = .function f ∧ f ∉ entered := hcome
      have hinner : inner.filter (ComesTo f) = [] := by
        generalize t.search (budget + 1) entered (.function f) memo = ended at hmove
        cases hmove with
        | expand _ hentry =>
          cases hentry
          exact filter_comesTo_callsAny (List.mem_cons_self ..)
        | _ => rfl
      rw [Charts, hcalls, List.filter_cons_of_pos (by simpa [ComesTo] using hf), hinner]
      exact ⟨_, ⟨Iff.rfl, Iff.rfl⟩, unknown_after_visit hf⟩
    · rw [Charts, hcalls, List.filter_cons_of_neg (by simpa using hcome)]
      generalize t.search (budget + 1) entered goal memo = ended at hmove ⊢
      cases hmove with
      | sight | known | cut => exact ⟨_, Iff.rfl, fun _ => Iff.rfl⟩
      | malformed => exact ⟨_, Iff.rfl, nofun⟩
      | @expand n goals outcome after _ hentry hn _ hany =>
        have hother : goal ≠ .function f := by
          rintro rfl
          cases hentry
          exact hcome ⟨rfl, hn⟩
        obtain ⟨p, hcourse, hp⟩ := charts_searchAny (ih (n :: entered)) goals (memo.enter goal)
        rw [hany] at hp
        rw [Memo.result?_enter] at hcourse
        exact ⟨p, hcourse, by rwa [Memo.result?_leave _ _ hother]⟩

/-! ## Scanning once -/

theorem scanned?_eq_some_iff {call : Call} :
    scanned? call = some f ↔ ComesTo f call ∧ call.subject.2.result? f = none := by
  obtain ⟨budget, entered, goal, memo⟩ := call
  cases goal with
  | success | value => simp [scanned?, ComesTo]
  | function g =>
    simp only [scanned?, ComesTo, Option.ite_none_right_eq_some, Option.some.injEq,
      Goal.function.injEq]
    constructor
    · rintro ⟨⟨hunknown, hfresh⟩, rfl⟩
      exact ⟨⟨rfl, hfresh⟩, hunknown⟩
    · rintro ⟨⟨rfl, hfresh⟩, hunknown⟩
      exact ⟨⟨hunknown, hfresh⟩, rfl⟩

/-- Of the calls that come to a function, those scan it before which all were inconclusive. -/
theorem scanned?_visits {before after : List Call} {call : Call}
    (h : t.visits goal f = before ++ call :: after) :
    scanned? call = some f ↔ ∀ c ∈ before, t.Inconclusive c := by
  obtain ⟨q, hcourse, -⟩ := t.charts_search f (t.size + 1) [] goal {}
  have hcome : ComesTo f call := by
    have hmem : call ∈ t.visits goal f := by simp [h]
    simpa using (List.mem_filter.mp hmem).2
  rw [show (t.calls (t.size + 1) [] goal {}).filter (ComesTo f) = t.visits goal f from rfl,
    h] at hcourse
  rw [scanned?_eq_some_iff, hcourse.unknown_iff]
  simp [hcome, Memo.result?]

/-- A function is scanned as often as one of the calls that come to it scans it. -/
theorem count_scans (t : Tree) (goal : Goal) (f : Nat) :
    (t.searchFrom goal).2.scans.count f = (t.visits goal f).countP (scanned? · = some f) := by
  have hscans : (t.searchFrom goal).2.scans =
      ((t.callsFrom goal).filterMap scanned?).reverse ++ [] := t.scans_search ..
  rw [hscans, List.append_nil, List.count_reverse, List.count_filterMap, visits,
    List.countP_filter]
  refine List.countP_congr fun call _ => ?_
  simp only [beq_iff_eq, Bool.and_eq_true, decide_eq_true_eq, scanned?_eq_some_iff]
  tauto

end Courses

/-- **When no function is scanned twice.**  Of the calls that come to a function, each scans it
exactly if all calls before were inconclusive.  So no function is scanned twice exactly if
there is none that the search comes to twice, the first time with an inconclusive end. -/
theorem scanned_once_iff (t : Tree) (goal : Goal) :
    (∀ f before call after, t.visits goal f = before ++ call :: after →
      (scanned? call = some f ↔ ∀ c ∈ before, t.Inconclusive c)) ∧
    ((t.searchFrom goal).2.scans.Nodup ↔
      ∀ f first second rest, t.visits goal f = first :: second :: rest →
        ¬ t.Inconclusive first) := by
  refine ⟨fun f before call after => scanned?_visits, ?_⟩
  simp only [List.nodup_iff_count_le_one, count_scans]
  refine forall_congr' fun f => ?_
  constructor
  · intro hcount first second rest hvisits hfirst
    have hscan : scanned? first = some f :=
      (scanned?_visits (show t.visits goal f = [] ++ first :: second :: rest from hvisits)).mpr
        (by simp)
    have hagain : scanned? second = some f :=
      (scanned?_visits (show t.visits goal f = [first] ++ second :: rest from hvisits)).mpr
        (by simpa using hfirst)
    rw [hvisits, List.countP_cons_of_pos (by simpa using hscan),
      List.countP_cons_of_pos (by simpa using hagain)] at hcount
    omega
  · intro hconclusive
    rcases hvisits : t.visits goal f with _ | ⟨first, _ | ⟨second, rest⟩⟩
    · simp
    · exact List.countP_le_length
    · -- after a conclusive first time nothing is left to be found out
      have hnone : (second :: rest).countP (scanned? · = some f) = 0 := by
        refine List.countP_eq_zero.mpr fun call hcall => ?_
        obtain ⟨before, after, hsplit⟩ := List.append_of_mem hcall
        have hscan : scanned? call = some f ↔ ∀ c ∈ first :: before, t.Inconclusive c :=
          scanned?_visits (by rw [hvisits, hsplit, List.cons_append])
        simp only [decide_eq_true_eq, hscan]
        exact fun hall => hconclusive _ _ _ hvisits (hall first (List.mem_cons_self ..))
      rw [List.countP_cons, hnone]
      split <;> omega

/-- The tree of `function f(){return c?g():g()}function g(){return f()}`. -/
def calledTwiceInCycle : Tree :=
  Table.toTree {
    source := Utf8.encode "function f()\x7breturn c?g():g()\x7dfunction g()\x7breturn f()\x7d"
    nodes := #[
      ⟨.program, none, 0, 54, none, true⟩,
      ⟨.functionDeclaration, some 0, 0, 30, none, true⟩,
      ⟨.identifier, some 1, 9, 10, some .name, true⟩,
      ⟨.formalParameters, some 1, 10, 12, some .parameters, true⟩,
      ⟨.statementBlock, some 1, 12, 30, some .body, true⟩,
      ⟨.returnStatement, some 4, 13, 29, none, true⟩,
      ⟨.ternaryExpression, some 5, 20, 29, none, true⟩,
      ⟨.identifier, some 6, 20, 21, some (.other "condition"), true⟩,
      ⟨.callExpression, some 6, 22, 25, some .consequence, true⟩,
      ⟨.identifier, some 8, 22, 23, some .function, true⟩,
      ⟨.arguments, some 8, 23, 25, some .arguments, true⟩,
      ⟨.callExpression, some 6, 26, 29, some .alternative, true⟩,
      ⟨.identifier, some 11, 26, 27, some .function, true⟩,
      ⟨.arguments, some 11, 27, 29, some .arguments, true⟩,
      ⟨.functionDeclaration, some 0, 30, 54, none, true⟩,
      ⟨.identifier, some 14, 39, 40, some .name, true⟩,
      ⟨.formalParameters, some 14, 40, 42, some .parameters, true⟩,
      ⟨.statementBlock, some 14, 42, 54, some .body, true⟩,
      ⟨.returnStatement, some 17, 43, 53, none, true⟩,
      ⟨.callExpression, some 18, 50, 53, none, true⟩,
      ⟨.identifier, some 19, 50, 51, some .function, true⟩,
      ⟨.arguments, some 19, 51, 53, some .arguments, true⟩]
    nonempty := by decide
    ordered := by decide }

/-- Asked about `f`, the search scans `g` at both calls, since it fails at the call of `f`
inside it. -/
theorem cycle_is_scanned_twice : calledTwiceInCycle.decidingFunction? 1 = some 1 ∧
    (calledTwiceInCycle.searchFrom (.function 1)).2.scans = [14, 14, 1] ∧
    ¬ (calledTwiceInCycle.searchFrom (.function 1)).2.scans.Nodup := by
  have hscans : (calledTwiceInCycle.searchFrom (.function 1)).2.scans = [14, 14, 1] := by
    decide +kernel
  exact ⟨by decide +kernel, hscans, by rw [hscans]; decide⟩

end Tree

end ComponentScan
