import Mathlib.Logic.Function.Iterate
import ComponentScan.Proofs.Tree.Scope

/-! # The nodes that are visited are the nodes that have an owner

A node is visited if it is linked to the root: it and all that encloses it, the root apart, are
named (`linked_iff_named`).  The same nodes have an owner.  The owners are computed row by row;
one may as well go down from the root, as the traversal does.  An `Indexing` is such a search
under way.  It has a stack of nodes, each with the owner that it inherits, and enters the owner
of the topmost one.  The children of a node are pushed in their order, so that the last of them
comes next: the nodes are entered in another order than they are visited in.

This makes no difference.  At every moment the entries are right, and what is still missing is
below a node on the stack (`Indexing.Sound`).  With each step one node less is left to be entered
(`Indexing.work_step`), and at the beginning there are no more than the tree has.  So after as
many steps the stack is empty, and the entries are the owners (`entries_index`).
-/
namespace ComponentScan.Tree

/-! ## Links to the root -/

/-- **A node is linked to the root if it and all that encloses it are named**, apart from the
root, which may be unnamed. -/
theorem linked_iff_named {t : Tree} {n : Nat} : t.Linked n ↔
    n < t.size ∧ ∀ a ∈ n :: t.ancestors n, a = Table.root ∨ t.isNamed a = true := by
  induction n using Nat.strongRecOn with
  | ind n ih =>
    cases hparent : t.parent? n with
    | none =>
      rw [ancestors_eq_nil hparent, List.forall_mem_singleton]
      constructor
      · intro h
        have hn := h.lt_size t.root_lt_size
        exact ⟨hn, .inl ((Table.parent?_eq_none_iff hn).mp hparent)⟩
      · rintro ⟨hn, -⟩
        rw [(Table.parent?_eq_none_iff hn).mp hparent]
        exact .root t
    | some p =>
      have hp := ih p (Table.parent?_lt hparent)
      rw [ancestors_of_parent? hparent, List.forall_mem_cons]
      constructor
      · intro h
        obtain ⟨hlinked, hn⟩ := h.parent hparent
        exact ⟨Table.lt_size_of_parent? hparent, .inr (mem_namedChildren.mp hn).2,
          (hp.mp hlinked).2⟩
      · rintro ⟨-, hself, houter⟩
        have hne : n ≠ Table.root := Nat.ne_of_gt (Nat.zero_lt_of_lt (Table.parent?_lt hparent))
        have hlinked := hp.mpr ⟨parent_lt_size hparent, houter⟩
        exact hlinked.child (mem_namedChildren.mpr ⟨hparent, hself.resolve_left hne⟩)

/-! ## Owners by going down -/

/-- A search for owners that is under way. -/
structure Indexing where
  /-- The nodes that are on the stack, the topmost first, each with the owner it inherits. -/
  pending : List (Nat × Nat)
  /-- The owners that are entered already. -/
  entries : Array (Option Nat)

/-- At the beginning nothing is entered, and the root is on the stack. -/
def Indexing.start (t : Tree) : Indexing where
  pending := [(Table.root, Table.root)]
  entries := Array.replicate t.size none

/-- The owner of a node that inherits the given one. -/
def ownerFrom (t : Tree) (n inherited : Nat) : Nat :=
  if (t.type n).isScope then n else inherited

/-- Takes the topmost node off the stack, enters its owner, and pushes its named children one
after the other. -/
def indexStep (t : Tree) (s : Indexing) : Indexing :=
  match s.pending with
  | [] => s
  | (n, inherited) :: rest =>
    let owner := t.ownerFrom n inherited
    { pending := ((t.namedChildren n).map (·, owner)).reverse ++ rest
      entries := s.entries.setIfInBounds n (some owner) }

/-- The search after `k` steps. -/
def index (t : Tree) (k : Nat) : Indexing :=
  t.indexStep^[k] (.start t)

namespace Indexing
variable {t : Tree} {s : Indexing}

/-- The owner that is entered for a node. -/
def entered? (s : Indexing) (n : Nat) : Option Nat :=
  s.entries[n]?.join

theorem indexStep_of_pending {n inherited : Nat} {rest : List (Nat × Nat)}
    (h : s.pending = (n, inherited) :: rest) : t.indexStep s =
      { pending := ((t.namedChildren n).map (·, t.ownerFrom n inherited)).reverse ++ rest
        entries := s.entries.setIfInBounds n (some (t.ownerFrom n inherited)) } := by
  rw [indexStep, h]

theorem indexStep_of_pending_eq_nil (h : s.pending = []) : t.indexStep s = s := by
  rw [indexStep, h]

/-- What is so at every moment of the search. -/
structure Sound (t : Tree) (s : Indexing) : Prop where
  /-- There is room for every node. -/
  size : s.entries.size = t.size
  /-- With what it inherits, a node on the stack has the owner that it should have. -/
  inherits : ∀ q ∈ s.pending, t.owner? q.1 = some (t.ownerFrom q.1 q.2)
  /-- Every entry is right. -/
  entered : ∀ n owner, s.entered? n = some owner → t.owner? n = some owner
  /-- What is linked to the root is entered, or below a node on the stack. -/
  covers : ∀ n, t.Linked n → s.entered? n = t.owner? n ∨
    ∃ q ∈ s.pending, (Descent.namedChildren t).Below q.1 n

theorem sound_start (t : Tree) : Sound t (.start t) where
  size := Array.size_replicate
  inherits := by
    intro q hq
    rw [List.mem_singleton.mp hq, t.owner?_root, ownerFrom, ite_self]
  entered := by
    intro n owner h
    rw [entered?, start, Array.getElem?_replicate] at h
    split at h <;> cases h
  covers := fun n h => .inr ⟨_, List.mem_singleton_self _, h⟩

/-- A step enters one owner and leaves the other entries as they are. -/
theorem entered?_set {n m owner : Nat} (hn : n < s.entries.size) (pending : List (Nat × Nat)) :
    entered? ⟨pending, s.entries.setIfInBounds n (some owner)⟩ m =
      if n = m then some owner else s.entered? m := by
  rw [entered?, Array.getElem?_setIfInBounds]
  by_cases heq : n = m
  · rw [if_pos heq, if_pos hn, if_pos heq, Option.join_some]
  · rw [if_neg heq, if_neg heq, entered?]

/-- **A step keeps all this.** -/
theorem Sound.step (h : Sound t s) : Sound t (t.indexStep s) := by
  cases hs : s.pending with
  | nil => rwa [indexStep_of_pending_eq_nil hs]
  | cons top rest =>
    obtain ⟨n, inherited⟩ := top
    have htop : t.owner? n = some (t.ownerFrom n inherited) :=
      h.inherits (n, inherited) (hs ▸ List.mem_cons_self ..)
    have hn : n < s.entries.size := h.size ▸ lt_size_of_owner? htop
    rw [indexStep_of_pending hs]
    refine ⟨?size, ?inherits, ?entered, ?covers⟩
    case size => rw [Array.size_setIfInBounds, h.size]
    case inherits =>
      intro q hq
      rcases List.mem_append.mp hq with hchild | hrest
      · obtain ⟨c, hc, rfl⟩ := List.mem_map.mp (List.mem_reverse.mp hchild)
        exact owner?_child htop hc
      · exact h.inherits q (hs ▸ List.mem_cons_of_mem _ hrest)
    case entered =>
      intro m owner hm
      rw [entered?_set hn] at hm
      split at hm
      · next heq => rw [← heq, htop, hm]
      · exact h.entered m owner hm
    case covers =>
      intro m hm
      rw [entered?_set hn]
      by_cases heq : n = m
      · exact .inl (by rw [if_pos heq, ← heq, htop])
      · rw [if_neg heq]
        refine (h.covers m hm).imp_right ?_
        rintro ⟨q, hq, hbelow⟩
        rcases List.mem_cons.mp (hs ▸ hq) with rfl | hrest
        · -- the way down from the node goes through one of the children that are pushed
          rcases Relation.ReflTransGen.cases_head hbelow with hself | ⟨c, hc, hbelow⟩
          · exact absurd hself heq
          · have hpushed := List.mem_reverse.mpr
              (List.mem_map_of_mem (f := (·, t.ownerFrom n inherited)) hc)
            exact ⟨_, List.mem_append_left _ hpushed, hbelow⟩
        · exact ⟨q, List.mem_append_right _ hrest, hbelow⟩

theorem sound_index (t : Tree) (k : Nat) : Sound t (t.index k) := by
  induction k with
  | zero => exact sound_start t
  | succ k ih =>
    rw [index, Function.iterate_succ_apply']
    exact ih.step

/-- When the stack is empty, a node has the entry that it should have. -/
theorem Sound.entered?_eq (h : Sound t s) (hs : s.pending = []) (n : Nat) :
    s.entered? n = t.owner? n := by
  by_cases hn : t.Linked n
  · refine (h.covers n hn).resolve_right ?_
    rintro ⟨q, hq, -⟩
    rw [hs] at hq
    cases hq
  · have hnone := owner?_of_not_linked hn
    cases hentry : s.entered? n with
    | none => exact hnone.symm
    | some owner => exact absurd (h.entered n owner hentry) (by simp [hnone])

/-! ## The end of the search -/

/-- The number of nodes that are still to be entered: all that is below the stack. -/
def work (t : Tree) (s : Indexing) : Nat :=
  (s.pending.flatMap fun q => (Descent.namedChildren t).preorder q.1).length

/-- A step leaves one node less. -/
theorem work_step (t : Tree) (s : Indexing) : work t (t.indexStep s) = work t s - 1 := by
  cases hs : s.pending with
  | nil => rw [indexStep_of_pending_eq_nil hs, work, hs]; rfl
  | cons top rest =>
    obtain ⟨n, inherited⟩ := top
    -- the order in which children are pushed does not matter for what is below them
    have hpushed (owner : Nat) : (((t.namedChildren n).map (·, owner)).reverse.flatMap fun q =>
          (Descent.namedChildren t).preorder q.1).length =
        ((t.namedChildren n).flatMap (Descent.namedChildren t).preorder).length := by
      rw [((List.reverse_perm _).flatMap_right _).length_eq, List.flatMap_map]
    have hbelow : ((Descent.namedChildren t).preorder n).length =
        ((t.namedChildren n).flatMap (Descent.namedChildren t).preorder).length + 1 := by
      rw [Descent.preorder_eq, List.length_cons]
      rfl
    rw [indexStep_of_pending hs, work, work, hs, List.flatMap_append, List.length_append, hpushed,
      List.flatMap_cons, List.length_append, hbelow]
    omega

/-- After `k` steps there are `k` nodes less to be entered. -/
theorem work_index (t : Tree) (k : Nat) :
    work t (t.index k) = ((Descent.namedChildren t).preorder Table.root).length - k := by
  induction k with
  | zero => exact congrArg List.length (List.flatMap_singleton _ _)
  | succ k ih => rw [index, Function.iterate_succ_apply', work_step, ← index, ih, Nat.sub_sub]

theorem pending_eq_nil_of_work_eq_zero (h : work t s = 0) : s.pending = [] := by
  cases hs : s.pending with
  | nil => rfl
  | cons top rest =>
    -- the topmost node itself is still to be entered
    rw [work, hs, List.flatMap_cons, Descent.preorder_eq] at h
    cases h

end Indexing

/-- **As many steps as there are nodes empty the stack.** -/
theorem pending_index (t : Tree) : (t.index t.size).pending = [] := by
  refine Indexing.pending_eq_nil_of_work_eq_zero (t := t) ?_
  rw [Indexing.work_index]
  exact Nat.sub_eq_zero_of_le (Descent.length_preorder_le _ _)

/-- **The search enters the owners that are computed row by row.** -/
theorem entries_index (t : Tree) : (t.index t.size).entries = t.owners := by
  have hsound := Indexing.sound_index t t.size
  refine Array.ext (hsound.size.trans t.size_owners.symm) fun n hn hn' => ?_
  have hentry := hsound.entered?_eq t.pending_index n
  rwa [Indexing.entered?, owner?, Array.getElem?_eq_getElem hn, Array.getElem?_eq_getElem hn',
    Option.join_some, Option.join_some] at hentry

/-- **The traversal is the recursive pre-order of the nodes that have an owner.**  It lists a
node and then what is below each of its named children, each node once; the nodes are those that
are linked to the root by named nodes.  A search with a stack that enters the owner of each node
it comes to ends with the owners of all nodes, and it has entered one for exactly these. -/
theorem traversal_is_preorder_of_owned_nodes (t : Tree) :
    t.nodesInOrder = (Descent.namedChildren t).preorder Table.root ∧
    t.nodesInOrder.Nodup ∧
    (∀ n, n ∈ t.nodesInOrder ↔
      n < t.size ∧ ∀ a ∈ n :: t.ancestors n, a = Table.root ∨ t.isNamed a = true) ∧
    (t.index t.size).pending = [] ∧ (t.index t.size).entries = t.owners ∧
    ∀ n, n ∈ t.nodesInOrder ↔ (t.owner? n).isSome = true := by
  have hpreorder : t.nodesInOrder = (Descent.namedChildren t).preorder Table.root :=
    (Descent.namedChildren t).visit_eq_preorder Table.root
  refine ⟨hpreorder, ?_, fun n => ?_, t.pending_index, t.entries_index, fun n => ?_⟩
  · rw [hpreorder]
    exact (Descent.namedChildren t).nodup_preorder Table.root
  · exact mem_nodesInOrder.trans linked_iff_named
  · exact mem_nodesInOrder.trans isSome_owner?_iff.symm

/-- The rows need not be in pre-order, and a named node below an unnamed one is not visited. -/
example :
    let t := Table.toTree {
      source := #[]
      nodes := #[
        ⟨.program, none, 0, 0, none, true⟩,
        ⟨.arrowFunction, some 0, 0, 0, none, true⟩,
        ⟨.comment, some 0, 0, 0, none, true⟩,
        ⟨.identifier, some 1, 0, 0, none, true⟩,
        ⟨.function, some 1, 0, 0, none, false⟩,
        ⟨.identifier, some 4, 0, 0, none, true⟩]
      nonempty := by decide
      ordered := by decide }
    t.nodesInOrder = [0, 1, 3, 2] ∧
      t.owners = #[some 0, some 1, some 0, some 1, none, none] := by
  decide +kernel

end ComponentScan.Tree
