import Mathlib.Data.List.Chain
import Mathlib.Data.List.Nodup
import Mathlib.Logic.Relation
import ComponentScan.Tree.Basic

/-! # Recursion under a guard

Three analyses follow a tree along edges that may form cycles: resolution of values, the
search for a module, and the search for a UI element.  Each of them passes down the list of
nodes that have been entered, gives up at a node that is in the list, and enters a node of
the table before it calls itself again.

A `GuardedRecursion` is such an analysis.  Its calls are seen as activations, where one
nests another.  Along a chain of nested activations no node is entered twice
(`GuardedRecursion.entersOnce`), so with each of them fewer nodes are left to enter, and a
budget larger than the number of nodes is never used up (`GuardedRecursion.not_exhausts`).

Where the recursion ends by itself, the guard is never met: what has been entered is not
reached again (`Avoids.cons`).
-/
namespace ComponentScan

namespace Tree

/-- The number of nodes of the table that a chain has not entered. -/
def unentered (t : Tree) (entered : List Nat) : Nat :=
  ((List.range t.size).filter (· ∉ entered)).length

/-- Entering a node leaves fewer to enter. -/
theorem unentered_cons_lt {t : Tree} {n : Nat} {entered : List Nat} (hn : n < t.size)
    (hfresh : n ∉ entered) : t.unentered (n :: entered) < t.unentered entered := by
  have hsplit : (List.range t.size).filter (· ∉ n :: entered) =
      ((List.range t.size).filter (· ∉ entered)).filter (· ≠ n) := by
    rw [List.filter_filter]
    refine List.filter_congr fun m _ => ?_
    simp [not_or]
  unfold unentered
  rw [hsplit]
  refine List.length_filter_lt_length_iff_exists.mpr ⟨n, ?_, by simp⟩
  exact List.mem_filter.mpr ⟨List.mem_range.mpr hn, by simpa using hfresh⟩

theorem unentered_nil (t : Tree) : t.unentered [] = t.size := by
  rw [unentered, List.filter_eq_self.mpr (by simp), List.length_range]

end Tree

/-- One call of an analysis. -/
structure Activation (α : Type) where
  /-- How many activations may still be nested, this one included. -/
  budget : Nat
  /-- The nodes that have been entered on the way here. -/
  entered : List Nat
  /-- What the analysis is asked about. -/
  subject : α

/-- An analysis that enters a node before it calls itself, and none that was entered on the
way. -/
structure GuardedRecursion (t : Tree) (α : Type) where
  /-- The node that is entered for a subject, unless the guard stops there. -/
  entrance? : α → Option Nat
  /-- An activation calls the analysis again. -/
  Nests : Activation α → Activation α → Prop
  /-- An activation runs out of its budget. -/
  Exhausts : Activation α → Prop
  /-- Only behind the guard, and at a node of the table, is the analysis called again. -/
  guarded : ∀ {a b}, Nests a b → ∃ n, entrance? a.subject = some n ∧ n < t.size ∧
    n ∉ a.entered ∧ b.entered = n :: a.entered ∧ a.budget = b.budget + 1
  /-- The budget is exhausted where it is zero, and where a nested activation exhausts
  what is left. -/
  exhausts_iff : ∀ a, Exhausts a ↔ a.budget = 0 ∨ ∃ b, Nests a b ∧ Exhausts b

namespace GuardedRecursion
variable {t : Tree} {α : Type} (r : GuardedRecursion t α)

/-- The node that an activation enters, if it gets past its guard. -/
def passes? (a : Activation α) : Option Nat :=
  (r.entrance? a.subject).filter (· ∉ a.entered)

/-- Along every chain of nested activations no node is entered twice, and the chain is at
most one longer than the table. -/
def EntersOnce : Prop :=
  ∀ chain : List (Activation α), chain.IsChain r.Nests →
    (∀ first ∈ chain.head?, first.entered = []) →
    (chain.filterMap r.passes?).Nodup ∧ chain.length ≤ t.size + 1

variable {r}

theorem not_mem_entered_of_passes? {a : Activation α} {n : Nat} (h : r.passes? a = some n) :
    n ∉ a.entered := by
  simpa using (Option.filter_eq_some_iff.mp h).2

/-- What nests another activation has passed its guard, and the other one knows. -/
theorem passes?_of_nests {a b : Activation α} (h : r.Nests a b) :
    ∃ n, r.passes? a = some n ∧ n < t.size ∧ n ∉ a.entered ∧ b.entered = n :: a.entered := by
  obtain ⟨n, hentry, hn, hfresh, hb, -⟩ := r.guarded h
  exact ⟨n, Option.filter_eq_some_iff.mpr ⟨hentry, by simpa using hfresh⟩, hn, hfresh, hb⟩

/-- From an activation on, the nodes that a chain enters are new and all different. -/
theorem nodup_passes {a : Activation α} {chain : List (Activation α)}
    (h : (a :: chain).IsChain r.Nests) :
    ((a :: chain).filterMap r.passes?).Nodup ∧
      ∀ n ∈ (a :: chain).filterMap r.passes?, n ∉ a.entered := by
  induction chain generalizing a with
  | nil =>
    cases hp : r.passes? a with
    | none => simp [hp]
    | some n => simpa [hp] using not_mem_entered_of_passes? hp
  | cons b chain ih =>
    obtain ⟨hab, hchain⟩ := List.isChain_cons_cons.mp h
    obtain ⟨n, hp, -, hfresh, hb⟩ := passes?_of_nests hab
    obtain ⟨hnodup, hnew⟩ := ih hchain
    rw [List.filterMap_cons_some hp]
    refine ⟨List.nodup_cons.mpr ⟨fun hmem => ?_, hnodup⟩, ?_⟩
    · exact hnew n hmem (by simp [hb])
    · intro m hm
      rcases List.mem_cons.mp hm with rfl | hm
      · exact hfresh
      · exact fun hmem => hnew m hm (by simp [hb, hmem])

/-- A chain is no longer than the number of nodes that are left to enter. -/
theorem length_chain_le {a : Activation α} {chain : List (Activation α)}
    (h : (a :: chain).IsChain r.Nests) : chain.length ≤ t.unentered a.entered := by
  induction chain generalizing a with
  | nil => exact Nat.zero_le _
  | cons b chain ih =>
    obtain ⟨hab, hchain⟩ := List.isChain_cons_cons.mp h
    obtain ⟨n, -, hn, hfresh, hb⟩ := passes?_of_nests hab
    have hlen := ih hchain
    have hlt := Tree.unentered_cons_lt hn hfresh
    rw [hb] at hlen
    rw [List.length_cons]
    omega

/-- **No node is entered twice along a chain of nested activations.** -/
theorem entersOnce (r : GuardedRecursion t α) : r.EntersOnce := by
  intro chain hchain hstart
  cases chain with
  | nil => simp
  | cons a chain =>
    have hempty : a.entered = [] := hstart a rfl
    have hlen := length_chain_le hchain
    rw [hempty, Tree.unentered_nil] at hlen
    refine ⟨(nodup_passes hchain).1, ?_⟩
    rw [List.length_cons]
    omega

/-- **A budget larger than the number of nodes left is never exhausted.** -/
theorem not_exhausts {a : Activation α} (h : t.unentered a.entered < a.budget) :
    ¬ r.Exhausts a := by
  induction hk : a.budget generalizing a with
  | zero => omega
  | succ budget ih =>
    rw [r.exhausts_iff]
    rintro (hzero | ⟨b, hab, hb⟩)
    · omega
    · obtain ⟨n, -, hn, hfresh, hentered, hbudget⟩ := r.guarded hab
      have hlt := Tree.unentered_cons_lt hn hfresh
      rw [← hentered] at hlt
      exact ih (by omega) (by omega) hb

end GuardedRecursion

/-! ## Where the guard is not met -/

/-- Following `calls` from `n` on, no node of `entered` is met. -/
def Avoids (calls : Nat → Nat → Prop) (n : Nat) (entered : List Nat) : Prop :=
  ∀ e ∈ entered, ¬ Relation.ReflTransGen calls n e

namespace Avoids
variable {calls : Nat → Nat → Prop} {n m : Nat} {entered : List Nat}

theorem nil (calls : Nat → Nat → Prop) (n : Nat) : Avoids calls n [] :=
  fun _ h => absurd h List.not_mem_nil

theorem not_mem (h : Avoids calls n entered) : n ∉ entered :=
  fun hmem => h n hmem .refl

/-- What calls itself in the end has no end. -/
theorem not_calls_self (hends : Acc (Function.swap calls) n) :
    ¬ Relation.TransGen calls n n := by
  induction hends with
  | intro n _ ih =>
    intro hloop
    obtain ⟨m, hcall, hback⟩ := Relation.TransGen.head'_iff.mp hloop
    exact ih m hcall (.tail' hback hcall)

/-- **A recursion that ends does not come back to what it has entered.** -/
theorem cons (h : Avoids calls n entered) (hends : Acc (Function.swap calls) n)
    (hcall : calls n m) : Avoids calls m (n :: entered) := by
  intro e he hreach
  rcases List.mem_cons.mp he with rfl | he
  · exact not_calls_self hends (.head' hcall hreach)
  · exact h e he (.head hcall hreach)

end Avoids

end ComponentScan
