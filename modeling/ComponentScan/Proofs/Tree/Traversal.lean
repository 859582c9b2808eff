import Mathlib.Data.List.Nodup
import Mathlib.Data.List.Perm.Subperm
import Mathlib.Logic.Relation
import ComponentScan.Tree.Basic

/-! # What a traversal visits

All traversals go down a tree, from a node to some of its children; a `Descent` is such a
rule.  The nodes below a node, itself first, are listed by a plain recursion
(`Descent.preorder`).  A traversal with a list of pending nodes and a limit gives the
beginning of that list (`Descent.visit_eq_take`), and the number of nodes of the tree is
limit enough to give all of it (`Descent.visit_eq_preorder`): no node is listed twice,
since two children of one node have nothing below them in common.
-/
namespace ComponentScan

namespace Tree

/-! ## Ancestors -/

section Ancestors
variable {t : Tree}

theorem ancestors_of_parent? {n p : Nat} (h : t.parent? n = some p) :
    t.ancestors n = p :: t.ancestors p := by
  rw [ancestors]
  split
  · next hnone => rw [h] at hnone; cases hnone
  · next q hq => cases h.symm.trans hq; rfl

theorem ancestors_eq_nil {n : Nat} (h : t.parent? n = none) : t.ancestors n = [] := by
  rw [ancestors]
  split
  · rfl
  · next q hq => rw [h] at hq; cases hq

/-- A node and what encloses it stand in no later row than the node. -/
theorem le_of_mem_ancestors {n a : Nat} (h : a ∈ n :: t.ancestors n) : a ≤ n := by
  induction n using Nat.strongRecOn with
  | ind n ih =>
    rcases List.mem_cons.mp h with rfl | h
    · exact Nat.le_refl _
    · cases hp : t.parent? n with
      | none => rw [ancestors_eq_nil hp] at h; cases h
      | some p =>
        rw [ancestors_of_parent? hp] at h
        have hlt := Table.parent?_lt hp
        exact Nat.le_trans (ih p hlt h) (Nat.le_of_lt hlt)

/-- Of the nodes that enclose a node, only one is a child of `p`. -/
theorem eq_of_mem_ancestors {n p a b : Nat} (ha : a ∈ n :: t.ancestors n)
    (hb : b ∈ n :: t.ancestors n) (hpa : t.parent? a = some p) (hpb : t.parent? b = some p) :
    a = b := by
  induction n using Nat.strongRecOn with
  | ind n ih =>
    cases hq : t.parent? n with
    | none =>
      rw [ancestors_eq_nil hq] at ha hb
      rw [List.mem_singleton.mp ha, List.mem_singleton.mp hb]
    | some q =>
      rw [ancestors_of_parent? hq] at ha hb
      have hlta := Table.parent?_lt hpa
      have hltb := Table.parent?_lt hpb
      rcases List.mem_cons.mp ha with han | ha' <;> rcases List.mem_cons.mp hb with hbn | hb'
      · rw [han, hbn]
      · rw [han, hq] at hpa
        have := le_of_mem_ancestors hb'
        have := Option.some.inj hpa
        omega
      · rw [hbn, hq] at hpb
        have := le_of_mem_ancestors ha'
        have := Option.some.inj hpb
        omega
      · exact ih q (Table.parent?_lt hq) ha' hb'

end Ancestors

/-! ## Nodes of the table -/

section InTable
variable {t : Tree} {n m : Nat}

theorem parent_lt_size (h : t.parent? n = some m) : m < t.size :=
  Nat.lt_trans (Table.parent?_lt h) (Table.lt_size_of_parent? h)

theorem lt_size_of_child? {field : Field} (h : t.child? n field = some m) : m < t.size :=
  Table.lt_size_of_parent? (parent?_of_child? h)

theorem lt_size_of_first? (h : t.first? n = some m) : m < t.size :=
  Table.lt_size_of_parent? (parent?_of_first? h)

theorem lt_size_of_mem_ancestors (h : m ∈ t.ancestors n) : m < t.size := by
  induction n using Nat.strongRecOn with
  | ind n ih =>
    cases hp : t.parent? n with
    | none => rw [ancestors_eq_nil hp] at h; cases h
    | some p =>
      rw [ancestors_of_parent? hp] at h
      rcases List.mem_cons.mp h with rfl | h
      · exact parent_lt_size hp
      · exact ih p (Table.parent?_lt hp) h

end InTable

/-- The children of a node are listed once each. -/
theorem nodup_children (t : Tree) (n : Nat) : (t.children n).Nodup := by
  unfold children
  rw [t.childIndex_eq, Array.getD_eq_getD_getElem?]
  by_cases h : n < t.size
  · simpa [h, Table.childrenOf] using List.nodup_range.filter _
  · simp [h]

end Tree

/-- A way to go down a tree: for every node some of its children, each once. -/
structure Descent (t : Tree) where
  /-- The nodes that a node leads to. -/
  next : Nat → List Nat
  /-- They are children of the node. -/
  parent?_of_mem : ∀ {n c}, c ∈ next n → t.parent? c = some n
  /-- None is listed twice. -/
  nodup : ∀ n, (next n).Nodup

namespace Descent
variable {t : Tree} (d : Descent t)

/-- From a node to its contents. -/
def contents (t : Tree) : Descent t where
  next := t.contents
  parent?_of_mem h := (Tree.mem_contents.mp h).1
  nodup n := ((t.nodup_children n).filter _).filter _

/-- From a node to its named children. -/
def namedChildren (t : Tree) : Descent t where
  next := t.namedChildren
  parent?_of_mem h := (Tree.mem_namedChildren.mp h).1
  nodup n := (t.nodup_children n).filter _

/-- The same descent, which goes no further at the nodes in `stop`. -/
def prune (stop : Nat → Prop) [DecidablePred stop] : Descent t where
  next n := if stop n then [] else d.next n
  parent?_of_mem {n c} h := by
    split at h
    · cases h
    · exact d.parent?_of_mem h
  nodup n := by
    split
    · exact List.nodup_nil
    · exact d.nodup n

/-- `m` is `n` itself, or below it. -/
def Below (n m : Nat) : Prop :=
  Relation.ReflTransGen (fun a b => b ∈ d.next a) n m

/-- A node, and then what is below each of the nodes it leads to, in order. -/
def preorder (n : Nat) : List Nat :=
  n :: (d.next n).flatMap fun c => preorder c
termination_by t.size - n
decreasing_by exact Tree.size_sub_lt (d.parent?_of_mem ‹_›)

theorem preorder_eq (n : Nat) : d.preorder n = n :: (d.next n).flatMap d.preorder := by
  rw [preorder]

/-- **A traversal gives the beginning of the pre-order of its pending nodes.** -/
theorem visit_eq_take (limit : Nat) (pending : List Nat) :
    Tree.visit d.next limit pending = (pending.flatMap d.preorder).take limit := by
  induction limit generalizing pending with
  | zero => simp [Tree.visit]
  | succ limit ih =>
    cases pending with
    | nil => simp [Tree.visit]
    | cons n pending =>
      rw [Tree.visit, ih, List.flatMap_cons, d.preorder_eq n, List.cons_append,
        List.take_succ_cons, List.flatMap_append]

/-- The pre-order lists what is below. -/
theorem mem_preorder {n m : Nat} : m ∈ d.preorder n ↔ d.Below n m := by
  constructor
  · intro h
    induction hk : t.size - n using Nat.strongRecOn generalizing n with
    | ind k ih =>
      rw [d.preorder_eq n] at h
      rcases List.mem_cons.mp h with rfl | h
      · exact .refl
      · obtain ⟨c, hc, hm⟩ := List.mem_flatMap.mp h
        have hlt := Tree.size_sub_lt (d.parent?_of_mem hc)
        exact .head hc (ih _ (hk ▸ hlt) hm rfl)
  · intro h
    induction h using Relation.ReflTransGen.head_induction_on with
    | refl => rw [d.preorder_eq m]; exact List.mem_cons_self ..
    | @head a c hc _ ih =>
      rw [d.preorder_eq a]
      exact List.mem_cons_of_mem _ (List.mem_flatMap.mpr ⟨c, hc, ih⟩)

/-- What is below a node is enclosed by it. -/
theorem Below.mem_ancestors {d : Descent t} {n m : Nat} (h : d.Below n m) :
    n ∈ m :: t.ancestors m := by
  induction h with
  | refl => exact List.mem_cons_self ..
  | tail _ hc ih =>
    rw [Tree.ancestors_of_parent? (d.parent?_of_mem hc)]
    exact List.mem_cons_of_mem _ ih

/-- What is below a child of a node stands in a later row than the node. -/
theorem Below.lt_of_parent? {d : Descent t} {n c m : Nat} (h : d.Below c m)
    (hc : t.parent? c = some n) : n < m := by
  have hlt := Table.parent?_lt hc
  have hle := Tree.le_of_mem_ancestors h.mem_ancestors
  omega

/-- What is below a node is the node itself, or its parent is below the node and leads to
it. -/
theorem Below.of_parent? {d : Descent t} {n m p : Nat} (h : d.Below n m)
    (hp : t.parent? m = some p) : m = n ∨ d.Below n p ∧ m ∈ d.next p := by
  rcases Relation.ReflTransGen.cases_tail h with hself | ⟨q, hq, hm⟩
  · exact .inl hself
  · have hparent := d.parent?_of_mem hm
    cases hp.symm.trans hparent
    exact .inr ⟨hq, hm⟩

/-- What is below a node of the tree is a node of the tree. -/
theorem Below.lt_size {d : Descent t} {n m : Nat} (h : d.Below n m) (hn : n < t.size) :
    m < t.size := by
  induction h with
  | refl => exact hn
  | tail _ hc _ => exact Table.lt_size_of_parent? (d.parent?_of_mem hc)

/-- Below different children of one node no node is listed twice. -/
theorem nodup_flatMap_preorder {n : Nat} {children : List Nat} (hnodup : children.Nodup)
    (hparent : ∀ c ∈ children, t.parent? c = some n)
    (h : ∀ c ∈ children, (d.preorder c).Nodup) : (children.flatMap d.preorder).Nodup := by
  refine List.nodup_flatMap.mpr ⟨h, hnodup.imp_of_mem fun {a b} ha hb hne => ?_⟩
  intro m hma hmb
  exact hne (Tree.eq_of_mem_ancestors (d.mem_preorder.mp hma).mem_ancestors
    (d.mem_preorder.mp hmb).mem_ancestors (hparent a ha) (hparent b hb))

/-- No node is listed twice. -/
theorem nodup_preorder (n : Nat) : (d.preorder n).Nodup := by
  induction hk : t.size - n using Nat.strongRecOn generalizing n with
  | ind k ih =>
    rw [d.preorder_eq n]
    refine List.nodup_cons.mpr ⟨?_, d.nodup_flatMap_preorder (d.nodup n)
      (fun _ => d.parent?_of_mem) fun c hc => ?_⟩
    · intro h
      obtain ⟨c, hc, hn⟩ := List.mem_flatMap.mp h
      exact Nat.lt_irrefl n ((d.mem_preorder.mp hn).lt_of_parent? (d.parent?_of_mem hc))
    · exact ih _ (hk ▸ Tree.size_sub_lt (d.parent?_of_mem hc)) c rfl

/-- There are no more nodes below a node than in the tree. -/
theorem length_preorder_le (n : Nat) : (d.preorder n).length ≤ t.size := by
  by_cases hn : n < t.size
  · have hsub : d.preorder n ⊆ List.range t.size := fun m hm =>
      List.mem_range.mpr ((d.mem_preorder.mp hm).lt_size hn)
    simpa using (List.Nodup.subperm (d.nodup_preorder n) hsub).length_le
  · -- a number without a row has no children
    have hnil : d.next n = [] := List.eq_nil_iff_forall_not_mem.mpr fun c hc => by
      have := Table.parent?_lt (d.parent?_of_mem hc)
      have := Table.lt_size_of_parent? (d.parent?_of_mem hc)
      omega
    rw [d.preorder_eq n, hnil]
    exact t.nonempty

/-- **A traversal whose limit is the number of nodes visits all that is below a node, in
pre-order.** -/
theorem visit_eq_preorder (n : Nat) : Tree.visit d.next t.size [n] = d.preorder n := by
  rw [d.visit_eq_take, List.flatMap_singleton]
  exact List.take_of_length_le (d.length_preorder_le n)

/-- A traversal from children of one node visits all that is below them. -/
theorem visit_eq_flatMap {n : Nat} {children : List Nat} (hnodup : children.Nodup)
    (hparent : ∀ c ∈ children, t.parent? c = some n) :
    Tree.visit d.next t.size children = children.flatMap d.preorder := by
  have hlist := d.nodup_flatMap_preorder hnodup hparent fun c _ => d.nodup_preorder c
  have hsub : children.flatMap d.preorder ⊆ List.range t.size := by
    intro m hm
    obtain ⟨c, hc, hmc⟩ := List.mem_flatMap.mp hm
    have hlt := Table.lt_size_of_parent? (hparent c hc)
    exact List.mem_range.mpr ((d.mem_preorder.mp hmc).lt_size hlt)
  rw [d.visit_eq_take]
  exact List.take_of_length_le (by simpa using (hlist.subperm hsub).length_le)

/-- What a node contains is below it by named children. -/
theorem Below.of_contents {n m : Nat} (h : (contents t).Below n m) :
    (namedChildren t).Below n m :=
  Relation.ReflTransGen.mono (fun _ _ hb => (List.mem_filter.mp hb).1) _ _ h

/-- What is below a node in a descent that is cut off somewhere is below it. -/
theorem Below.of_prune {stop : Nat → Prop} [DecidablePred stop] {n m : Nat}
    (h : (d.prune stop).Below n m) : d.Below n m := by
  refine Relation.ReflTransGen.mono (fun a b hb => ?_) _ _ h
  by_cases hstop : stop a
  · rw [show (d.prune stop).next a = [] from if_pos hstop] at hb
    cases hb
  · rwa [show (d.prune stop).next a = d.next a from if_neg hstop] at hb

/-- Where a descent is cut off, nothing is lost of what has a property, if nothing from there on
has it. -/
theorem filter_preorder_prune {stop : Nat → Prop} [DecidablePred stop] {p : Nat → Bool} {n : Nat}
    (h : ∀ s, d.Below n s → stop s → ∀ m, d.Below s m → p m = false) :
    ((d.prune stop).preorder n).filter p = (d.preorder n).filter p := by
  induction hk : t.size - n using Nat.strongRecOn generalizing n with
  | ind k ih =>
    by_cases hstop : stop n
    · have hnil (l : List Nat) (hl : ∀ m ∈ l, d.Below n m) : l.filter p = [] := by
        refine List.filter_eq_nil_iff.mpr fun m hm => ?_
        rw [h n .refl hstop m (hl m hm)]
        exact Bool.false_ne_true
      rw [hnil _ fun m hm => Below.of_prune d (mem_preorder _ |>.mp hm),
        hnil _ fun m hm => d.mem_preorder.mp hm]
    · have hnext : (d.prune stop).next n = d.next n := if_neg hstop
      have hchildren : ((d.next n).flatMap (d.prune stop).preorder).filter p =
          ((d.next n).flatMap d.preorder).filter p := by
        rw [List.filter_flatMap, List.filter_flatMap]
        refine List.flatMap_congr fun c hc => ?_
        have hlt := Tree.size_sub_lt (d.parent?_of_mem hc)
        exact ih _ (hk ▸ hlt) (fun s hs => h s (.head hc hs)) rfl
      rw [preorder_eq, d.preorder_eq n, hnext, List.filter_cons, List.filter_cons, hchildren]

theorem mem_visit {n m : Nat} : m ∈ Tree.visit d.next t.size [n] ↔ d.Below n m := by
  rw [d.visit_eq_preorder, d.mem_preorder]

end Descent

namespace Tree

theorem mem_nodesInOrder {t : Tree} {n : Nat} :
    n ∈ t.nodesInOrder ↔ (Descent.namedChildren t).Below Table.root n :=
  (Descent.namedChildren t).mem_visit

/-- With a node its parent is linked to the root. -/
theorem parent_mem_nodesInOrder {t : Tree} {n p : Nat} (h : n ∈ t.nodesInOrder)
    (hp : t.parent? n = some p) : p ∈ t.nodesInOrder := by
  rw [mem_nodesInOrder] at h ⊢
  rcases h.of_parent? hp with rfl | ⟨hbelow, -⟩
  · exact absurd (Table.parent?_lt hp) (Nat.not_lt_zero _)
  · exact hbelow

end Tree

end ComponentScan
