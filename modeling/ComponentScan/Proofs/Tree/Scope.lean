import ComponentScan.Proofs.Tree.Owner
import ComponentScan.Proofs.Tree.Traversal

/-! # Scopes

The scope of a node is looked up among the owners, which are computed in one pass over the
table.  For a node that is linked to the root by named nodes, it is what one reads off the
tree: the node itself if it is a function, or else the innermost function that encloses it
(`Linked.scope_eq`).  So a named child has the scope of its parent unless it is a function
(`Linked.scope_child`), and nothing below a function has the scope of a node above it
(`Linked.scope_ne_of_below`).

Exactly the linked nodes have an owner (`isSome_owner?_iff`); any other node has the scope of
its parent (`scope_of_not_linked`).  So the scope of any node at all is the nearest function
from it outwards that is linked to the root (`scope_is_nearest_linked_function`); a keyword
that has the type of a function does not count.
-/
namespace ComponentScan.Tree

/-- The node is connected to the root by named nodes only. -/
def Linked (t : Tree) (n : Nat) : Prop :=
  (Descent.namedChildren t).Below Table.root n

instance (t : Tree) : DecidablePred t.Linked :=
  fun n => decidable_of_iff (n ∈ t.nodesInOrder) mem_nodesInOrder

/-- The innermost function that encloses a node. -/
def enclosingFunction? (t : Tree) (n : Nat) : Option Nat :=
  (t.ancestors n).find? fun a => (t.type a).isScope

/-- The nearest function, from the node itself outwards, that is linked to the root. -/
def nearestFunction? (t : Tree) (n : Nat) : Option Nat :=
  (n :: t.ancestors n).find? fun a => (t.type a).isScope ∧ t.Linked a

section Scopes
variable {t : Tree} {n m c : Nat}

theorem scope_of_owner? {o : Nat} (h : t.owner? n = some o) : t.scope n = o := by
  rw [scope, List.findSome?_cons, h]
  rfl

theorem scope_root (t : Tree) : t.scope Table.root = Table.root :=
  scope_of_owner? t.owner?_root

theorem enclosingFunction?_of_parent? {p : Nat} (h : t.parent? n = some p) :
    t.enclosingFunction? n =
      if (t.type p).isScope then some p else t.enclosingFunction? p := by
  rw [enclosingFunction?, ancestors_of_parent? h, List.find?_cons]
  cases (t.type p).isScope <;> rfl

namespace Linked

theorem root (t : Tree) : t.Linked Table.root :=
  Relation.ReflTransGen.refl

theorem child (h : t.Linked n) (hc : c ∈ t.namedChildren n) : t.Linked c :=
  Relation.ReflTransGen.tail h hc

/-- With a node its parent is linked, and the node is a named child of it. -/
theorem parent {p : Nat} (h : t.Linked n) (hp : t.parent? n = some p) :
    t.Linked p ∧ n ∈ t.namedChildren p := by
  rcases Descent.Below.of_parent? h hp with rfl | hlink
  · exact absurd (Table.parent?_lt hp) (Nat.not_lt_zero _)
  · exact hlink

theorem of_below (h : t.Linked n) (hm : (Descent.namedChildren t).Below n m) : t.Linked m :=
  Relation.ReflTransGen.trans h hm

/-- Linked nodes have an owner, which is their scope. -/
theorem owner?_eq (h : t.Linked n) : t.owner? n = some (t.scope n) := by
  induction h with
  | refl => rw [t.scope_root, t.owner?_root]
  | tail _ hc ih =>
    have howner := owner?_child ih hc
    rw [howner, scope_of_owner? howner]

/-- A named child has the scope of its parent, unless it is a function. -/
theorem scope_child (h : t.Linked n) (hc : c ∈ t.namedChildren n) :
    t.scope c = if (t.type c).isScope then c else t.scope n :=
  scope_of_owner? (owner?_child h.owner?_eq hc)

/-- **The scope of a linked node is the nearest function**, itself included, or the root. -/
theorem scope_eq (h : t.Linked n) : t.scope n =
    if (t.type n).isScope then n else (t.enclosingFunction? n).getD Table.root := by
  induction h with
  | refl =>
    have hparent : t.parent? Table.root = none :=
      (Table.parent?_eq_none_iff t.root_lt_size).mpr rfl
    rw [t.scope_root, enclosingFunction?, ancestors_eq_nil hparent]
    split <;> rfl
  | @tail b c hb hc ih =>
    rw [scope_child hb hc, enclosingFunction?_of_parent? (mem_namedChildren.mp hc).1, ih]
    split
    · rfl
    · split <;> rfl

/-- A linked function is its own scope. -/
theorem scope_eq_self (h : t.Linked n) (hn : (t.type n).isScope = true) : t.scope n = n := by
  rw [h.scope_eq, if_pos hn]

/-- A scope stands in no later row than what it is the scope of. -/
theorem scope_le (h : t.Linked n) : t.scope n ≤ n := by
  induction h with
  | refl => exact Nat.le_of_eq t.scope_root
  | @tail b c hb hc ih =>
    have hlt := Table.parent?_lt (mem_namedChildren.mp hc).1
    rw [scope_child hb hc]
    split
    · exact Nat.le_refl c
    · omega

/-- **Below a node of another scope nothing has the scope `f`**, if `f` is above the node. -/
theorem scope_ne_of_below {f : Nat} (hn : t.Linked n) (hinside : f < n)
    (hforeign : t.scope n ≠ f) (hm : (Descent.namedChildren t).Below n m) : t.scope m ≠ f := by
  induction hm with
  | refl => exact hforeign
  | @tail b c hb hc ih =>
    rw [(hn.of_below hb).scope_child hc]
    split
    · -- a function further down is its own scope, and stands in a later row
      have hle := le_of_mem_ancestors (Descent.Below.mem_ancestors hb)
      have hlt := Table.parent?_lt (mem_namedChildren.mp hc).1
      omega
    · exact ih

end Linked

/-! ## Nodes that are not linked -/

/-- A number without a parent is the root, or it has no row and so no owner. -/
theorem eq_root_or_owner?_eq_none (h : t.parent? n = none) :
    n = Table.root ∨ t.owner? n = none := by
  by_cases hn : n < t.size
  · exact .inl ((Table.parent?_eq_none_iff hn).mp h)
  · exact .inr (owner?_eq_none (Nat.not_lt.mp hn))

/-- **Exactly the linked nodes have an owner.** -/
theorem isSome_owner?_iff : (t.owner? n).isSome = true ↔ t.Linked n := by
  constructor
  · intro h
    induction n using Nat.strongRecOn with
    | ind n ih =>
      cases hparent : t.parent? n with
      | none =>
        rcases eq_root_or_owner?_eq_none hparent with rfl | hnone
        · exact .root t
        · rw [hnone] at h
          cases h
      | some p =>
        rw [owner?_of_parent? hparent] at h
        by_cases hnamed : t.isNamed n = true
        · rw [if_pos hnamed, Option.isSome_map] at h
          have hp := ih p (Table.parent?_lt hparent) h
          exact hp.child (mem_namedChildren.mpr ⟨hparent, hnamed⟩)
        · rw [if_neg hnamed] at h
          cases h
  · intro h
    rw [h.owner?_eq]
    rfl

theorem owner?_of_not_linked (h : ¬ t.Linked n) : t.owner? n = none := by
  rw [← Option.not_isSome_iff_eq_none, isSome_owner?_iff]
  exact h

/-- A node that is not linked has the scope of its parent. -/
theorem scope_of_not_linked {p : Nat} (h : ¬ t.Linked n) (hparent : t.parent? n = some p) :
    t.scope n = t.scope p := by
  rw [scope, List.findSome?_cons, owner?_of_not_linked h, ancestors_of_parent? hparent]
  rfl

theorem scope_of_parent?_eq_none (hparent : t.parent? n = none) : t.scope n = Table.root := by
  rcases eq_root_or_owner?_eq_none hparent with rfl | hnone
  · exact t.scope_root
  · rw [scope, ancestors_eq_nil hparent, List.findSome?_cons, hnone]
    rfl

theorem nearestFunction?_of_parent? {p : Nat} (hparent : t.parent? n = some p) :
    t.nearestFunction? n =
      if (t.type n).isScope ∧ t.Linked n then some n else t.nearestFunction? p := by
  rw [nearestFunction?, ancestors_of_parent? hparent, List.find?_cons]
  by_cases h : (t.type n).isScope = true ∧ t.Linked n
  · simp [h]
  · simp [h, nearestFunction?]

/-- Where the way outwards ends, only the root can be found. -/
theorem nearestFunction?_of_parent?_eq_none (hparent : t.parent? n = none) :
    (t.nearestFunction? n).getD Table.root = Table.root := by
  rw [nearestFunction?, ancestors_eq_nil hparent]
  by_cases h : (t.type n).isScope = true ∧ t.Linked n
  · rw [List.find?_cons_of_pos (by simpa using h)]
    exact (Table.parent?_eq_none_iff (h.2.lt_size t.root_lt_size)).mp hparent
  · rw [List.find?_cons_of_neg (by simpa using h)]
    rfl

end Scopes

/-- **The scope of a node is the nearest function that is linked to the root**, from the node
itself outwards, or the root if there is none.  This holds of every node, named or not. -/
theorem scope_is_nearest_linked_function (t : Tree) (n : Nat) :
    t.scope n = (t.nearestFunction? n).getD Table.root := by
  induction n using Nat.strongRecOn with
  | ind n ih =>
    cases hparent : t.parent? n with
    | none => rw [scope_of_parent?_eq_none hparent, nearestFunction?_of_parent?_eq_none hparent]
    | some p =>
      have houter := ih p (Table.parent?_lt hparent)
      rw [nearestFunction?_of_parent? hparent]
      by_cases hlinked : t.Linked n
      · -- the last step of the link is the one from `p`
        obtain ⟨hp, hn⟩ := hlinked.parent hparent
        rw [hp.scope_child hn]
        by_cases hfunction : (t.type n).isScope = true
        · rw [if_pos hfunction, if_pos ⟨hfunction, hlinked⟩]
          rfl
        · rw [if_neg hfunction, if_neg fun h => hfunction h.1, houter]
      · rw [scope_of_not_linked hlinked hparent, if_neg fun h => hlinked h.2, houter]

/-- The keyword of a function may have a function's type.  It is no scope, though, and neither
is a function below it. -/
example :
    let t := Table.toTree {
      source := #[]
      nodes := #[
        ⟨.program, none, 0, 0, none, true⟩,
        ⟨.functionExpression, some 0, 0, 0, none, true⟩,
        ⟨.function, some 1, 0, 0, none, false⟩,
        ⟨.arrowFunction, some 2, 0, 0, none, true⟩]
      nonempty := by decide
      ordered := by decide }
    (t.scope 2, t.scope 3) = (1, 1) := by
  decide +kernel

end ComponentScan.Tree
