import ComponentScan.Flow.Goal
import ComponentScan.Proofs.Tree.Construct
import ComponentScan.Proofs.Tree.Traversal

/-! # The returns of a function

To find the return statements that a function owns, its contents are traversed, and a
return statement of another function is left out with all that it holds.  `Owns` says the
same without a traversal: a function owns a return statement of its scope that it reaches
without passing through a foreign one.
-/
namespace ComponentScan.Tree

/-- The way down from a function `f`, which ends at return statements of other scopes. -/
def inFunction (t : Tree) (f : Nat) : Descent t :=
  (Descent.contents t).prune fun n => t.construct n = .returnStatement ∧ t.scope n ≠ t.scope f

theorem inFunction_next (t : Tree) (f n : Nat) : (t.inFunction f).next n =
    if t.construct n = .returnStatement ∧ t.scope n ≠ t.scope f then [] else t.contents n :=
  rfl

/-- The return statement `r` belongs to the function `f`. -/
structure Owns (t : Tree) (f r : Nat) : Prop where
  /-- It is inside the function, and in no foreign return statement. -/
  inside : (t.inFunction f).Below f r
  /-- It is a return statement. -/
  isReturn : t.construct r = .returnStatement
  /-- It has the scope of the function. -/
  scope_eq : t.scope r = t.scope f

theorem mem_functionNodes {t : Tree} {f n : Nat} :
    n ∈ t.functionNodes f ↔ (t.inFunction f).Below f n :=
  (t.inFunction f).mem_visit

theorem mem_ownedReturns {t : Tree} {f r : Nat} : r ∈ t.ownedReturns f ↔ t.Owns f r := by
  simp only [ownedReturns, List.mem_filter, mem_functionNodes, decide_eq_true_eq]
  constructor
  · rintro ⟨hin, hreturn, hscope⟩
    exact ⟨hin, hreturn, hscope⟩
  · intro h
    exact ⟨h.inside, h.isReturn, h.scope_eq⟩

/-- What a function returns: the first of the contents of a return statement that it
owns. -/
theorem mem_returnGoals {t : Tree} {f : Nat} {g : Goal} :
    g ∈ t.returnGoals f ↔ ∃ r v, t.Owns f r ∧ t.first? r = some v ∧ g = .value v := by
  simp only [returnGoals, List.mem_map, List.mem_filterMap, mem_ownedReturns]
  constructor
  · rintro ⟨v, ⟨r, hr, hv⟩, rfl⟩
    exact ⟨r, v, hr, hv, rfl⟩
  · rintro ⟨r, v, hr, hv, rfl⟩
    exact ⟨v, ⟨r, hr, hv⟩, rfl⟩

/-- Only nodes of the table own return statements. -/
theorem Owns.lt_size {t : Tree} {f r : Nat} (h : t.Owns f r) : f < t.size := by
  have hr : r < t.size := lt_size_of_construct (by simp [h.isReturn])
  exact Nat.lt_of_le_of_lt (le_of_mem_ancestors h.inside.mem_ancestors) hr

end ComponentScan.Tree
