import ComponentScan.Proofs.Flow.Graph
import ComponentScan.Proofs.Flow.Memo

/-! # The search decides reachability

The analysis answers a question about the graph of values: is a UI element reachable?  A
positive answer, and likewise a complaint, comes from a goal at the end of a path
(`exists_of_plainSearch`).  A negative answer is given although the search turns back at
every node that its chain has entered.  Nothing is lost by that: a path that comes back to
a node can be cut short, since all goals that enter a node lead to the same goals.  In the
proof the path is taken from where it leaves the node for the last time
(`passes_after_last_exit`).
-/
namespace ComponentScan.Tree

/-- The second goal can be reached from the first. -/
def Reaches (t : Tree) : Goal → Goal → Prop :=
  Relation.ReflTransGen t.Leads

/-- The goal is a UI element at sight. -/
def Succeeds (t : Tree) : Goal → Prop
  | .success => True
  | .value e => t.isElement (t.unwrap e) = true
  | .function _ => False

/-- The goals that can be reached from the value of an expression. -/
def ReachesFromValue (t : Tree) (n : Nat) (goal : Goal) : Prop :=
  t.Reaches (.value n) goal

/-- The goals that can be reached from the returns of the function that decides about a
node, if there is one. -/
def ReachesFromReturns (t : Tree) (n : Nat) (goal : Goal) : Prop :=
  ∃ f, t.Decides f n ∧ t.Reaches (.function f) goal

/-- An answer says whether a UI element is among the goals that can be reached; a
complaint is about one of these goals. -/
def Explains (t : Tree) (reached : Goal → Prop) : Except MissingChild Bool → Prop
  | .ok answer => answer = true ↔ ∃ g, reached g ∧ t.Succeeds g
  | .error missing => ∃ g, reached g ∧ t.Lacks missing g

theorem succeeds_iff {t : Tree} {g : Goal} : t.Succeeds g ↔ t.entrance? g = none := by
  cases g <;> simp [Succeeds, entrance?]

/-! ## What ends a search -/

/-- A goal where a search may end with the given result, if it is no failure. -/
def Ends (t : Tree) : Except MissingChild Bool → Goal → Prop
  | .ok true, g => t.Succeeds g
  | .ok false, _ => False
  | .error missing, g => t.Lacks missing g

/-- Whatever a search ends with, other than failure, it has found at a goal that can be
reached. -/
theorem exists_of_plainSearch {t : Tree} {entered : List Nat} {goal : Goal}
    {r : Except MissingChild Bool} (hproper : t.IsProper goal)
    (h : t.plainSearch entered goal = r) (hr : r ≠ .ok false) :
    ∃ g, t.Reaches goal g ∧ t.Ends r g := by
  -- as the search itself, the induction is on the nodes that are left to enter
  induction hk : t.unentered entered using Nat.strongRecOn generalizing entered goal with
  | ind k ih =>
    cases hentry : t.entrance? goal with
    | none =>
      rw [plainSearch_sight hentry] at h
      subst h
      exact ⟨goal, .refl, succeeds_iff.mpr hentry⟩
    | some n =>
      by_cases hn : n ∈ entered
      · rw [plainSearch_cut hentry hn] at h
        exact absurd h.symm hr
      · cases hgoals : t.goalsOf goal with
        | error missing =>
          rw [plainSearch_malformed hentry hn hgoals] at h
          subst h
          exact ⟨goal, .refl, lacks_of_goalsOf hentry hgoals⟩
        | ok goals =>
          rw [plainSearch_expand hentry hn hgoals] at h
          obtain ⟨g, hg, hend⟩ := exists_of_anyM h hr
          have hleads := leads_of_mem_goalsOf hproper hentry hgoals hg
          have hlt := unentered_cons_lt (lt_size_of_mem_goalsOf hentry hgoals hg) hn
          obtain ⟨z, hz, hz'⟩ := ih _ (hk ▸ hlt) hleads.isProper hend rfl
          exact ⟨z, .head hleads hz, hz'⟩

/-! ## Nothing is lost by turning back -/

/-- An edge from a goal whose node the chain has not entered. -/
def Passes (t : Tree) (entered : List Nat) (a b : Goal) : Prop :=
  t.Leads a b ∧ ∀ n, t.entrance? a = some n → n ∉ entered

/-- A path either avoids the node `n` as well, or it does so from where it leaves `n` for
the last time. -/
theorem passes_after_last_exit {t : Tree} {entered : List Nat} {a z : Goal} (n : Nat)
    (h : Relation.ReflTransGen (t.Passes entered) a z) :
    Relation.ReflTransGen (t.Passes (n :: entered)) a z ∨
      ∃ b c, t.entrance? b = some n ∧ t.Leads b c ∧
        Relation.ReflTransGen (t.Passes (n :: entered)) c z := by
  induction h using Relation.ReflTransGen.head_induction_on with
  | refl => exact .inl .refl
  | @head a b hab _ ih =>
    rcases ih with hbz | hlater
    · by_cases ha : t.entrance? a = some n
      · exact .inr ⟨a, b, ha, hab.1, hbz⟩
      · refine .inl (.head ⟨hab.1, ?_⟩ hbz)
        intro m hm hmem
        rcases List.mem_cons.mp hmem with rfl | hmem
        · exact ha hm
        · exact hab.2 m hm hmem
    · exact .inr hlater

/-- A goal whose node has been entered passes to no other. -/
theorem eq_of_passes_of_mem {t : Tree} {entered : List Nat} {a z : Goal} {n : Nat}
    (hentry : t.entrance? a = some n) (hn : n ∈ entered)
    (h : Relation.ReflTransGen (t.Passes entered) a z) : a = z := by
  rcases Relation.ReflTransGen.cases_head h with rfl | ⟨b, hab, -⟩
  · rfl
  · exact absurd hn (hab.2 n hentry)

/-- Where the search fails, no path around the entered nodes ends at a UI element. -/
theorem not_succeeds_of_plainSearch {t : Tree} {entered : List Nat} {goal z : Goal}
    (h : t.plainSearch entered goal = .ok false)
    (hpath : Relation.ReflTransGen (t.Passes entered) goal z) : ¬ t.Succeeds z := by
  induction hk : t.unentered entered using Nat.strongRecOn generalizing entered goal with
  | ind k ih =>
    cases hentry : t.entrance? goal with
    | none =>
      rw [plainSearch_sight hentry] at h
      cases h
    | some n =>
      have hself : ¬ t.Succeeds goal := by simp [succeeds_iff, hentry]
      by_cases hn : n ∈ entered
      · rwa [← eq_of_passes_of_mem hentry hn hpath]
      · cases hgoals : t.goalsOf goal with
        | error missing =>
          rw [plainSearch_malformed hentry hn hgoals] at h
          cases h
        | ok goals =>
          rw [plainSearch_expand hentry hn hgoals, anyM_eq_false_iff] at h
          have hbehind {g : Goal} (hg : g ∈ goals)
              (hgz : Relation.ReflTransGen (t.Passes (n :: entered)) g z) : ¬ t.Succeeds z := by
            have hlt := unentered_cons_lt (lt_size_of_mem_goalsOf hentry hgoals hg) hn
            exact ih _ (hk ▸ hlt) (h g hg) hgz rfl
          have hnosuccess : Goal.success ∉ goals := by
            intro hmem
            have hfail := h _ hmem
            rw [plainSearch_sight rfl] at hfail
            cases hfail
          rcases passes_after_last_exit n hpath with havoid | ⟨b, c, hb, hbc, hcz⟩
          · -- a path that avoids the node of its first goal has no edge
            rwa [← eq_of_passes_of_mem hentry (List.mem_cons_self ..) havoid]
          · -- `b` enters the node of `goal`, so what it leads to has been searched
            rcases Relation.ReflTransGen.cases_head hpath with rfl | ⟨a, hga, -⟩
            · exact hself
            · have hsame := goalsOf_eq_of_entrance? hb hentry hbc hga.1
              have hc := mem_goalsOf_of_leads hbc (hsame.trans hgoals)
              exact hbehind (hc.resolve_right hnosuccess) hcz

/-- With nothing entered, every path may be passed. -/
theorem not_succeeds_of_reaches {t : Tree} {goal z : Goal} (h : t.plainSearch [] goal = .ok false)
    (hpath : t.Reaches goal z) : ¬ t.Succeeds z :=
  have hfree : ∀ a b, t.Leads a b → t.Passes [] a b := fun _ _ hleads => ⟨hleads, by simp⟩
  not_succeeds_of_plainSearch h (Relation.ReflTransGen.mono hfree _ _ hpath)

/-! ## The answers -/

/-- The plain search from a proper goal explains itself by reachability. -/
theorem explains_plainSearch {t : Tree} {goal : Goal} (hproper : t.IsProper goal) :
    t.Explains (t.Reaches goal) (t.plainSearch [] goal) := by
  rcases h : t.plainSearch [] goal with missing | answer
  · exact exists_of_plainSearch hproper h (by simp)
  · cases answer with
    | true => exact ⟨fun _ => exists_of_plainSearch hproper h (by simp), fun _ => rfl⟩
    | false =>
      refine ⟨nofun, ?_⟩
      rintro ⟨g, hg, hsucceeds⟩
      exact absurd hsucceeds (not_succeeds_of_reaches h hg)

/-- **The analysis computes whether a UI element is reachable.**  Asked about any node of
any tree, it answers `true` exactly if a UI element can be reached in the graph of values
from the expression, or from the returns of the function that decides about the node; and
it complains only about a call without a callee, or an arrow function without a body, that
can be reached. -/
theorem answers_are_reachability (t : Tree) (n : Nat) :
    t.Explains (t.ReachesFromValue n) (t.mayBeElement n) ∧
      t.Explains (t.ReachesFromReturns n) (t.mayReturnElement n) := by
  constructor
  · rw [mayBeElement, toExcept_searchFrom]
    exact explains_plainSearch trivial
  · unfold mayReturnElement
    cases hf : t.decidingFunction? n with
    | none => simp [Explains, ReachesFromReturns, ← decidingFunction?_eq_some_iff, hf]
    | some f =>
      have hreached : t.ReachesFromReturns n = t.Reaches (.function f) := by
        funext g
        simp [ReachesFromReturns, ← decidingFunction?_eq_some_iff, hf]
      simp only [toExcept_searchFrom, hreached]
      exact explains_plainSearch (isFunctionNode_of_decidingFunction? hf)

/-- A tree whose only node is an arrow function without a body. -/
def bodilessArrow : Tree :=
  Table.toTree {
    source := #[]
    nodes := #[{ type := .arrowFunction, parent := none, start := 0, stop := 0, field := none,
                 named := true }]
    nonempty := by decide
    ordered := by decide }

/-- A complaint need not be about a call: the body of an arrow function may be missing in
a tree that has no calls. -/
theorem complaint_without_a_call :
    bodilessArrow.mayReturnElement 0 = .error ⟨.arrowFunction, .body⟩ ∧
      ∀ v, bodilessArrow.construct v ≠ .call := by
  refine ⟨by decide +kernel, ?_⟩
  intro v hcall
  have hv : v < 1 := lt_size_of_construct (t := bodilessArrow) (by simp [hcall])
  obtain rfl : v = 0 := by omega
  revert hcall
  decide +kernel

end ComponentScan.Tree
