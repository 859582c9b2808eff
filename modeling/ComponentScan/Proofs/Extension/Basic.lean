import Mathlib.Data.List.Basic
import Mathlib.Data.List.Find
import ComponentScan.Proofs.Tree.Construct
import ComponentScan.Proofs.Tree.Owner
import ComponentScan.Proofs.Tree.Traversal

/-! # A program with one more function

A program is extended by a function declaration: text is appended to its source, and the
rows of the declaration to its table.  The old rows do not change, and only the root has a
child more than before.  So all that is told from the old nodes alone stays the same: their
types, texts and spans, what encloses them, and, except for the root, what is inside them.
-/
namespace ComponentScan

/-- Searching a list gives the same for functions that agree on its members. -/
theorem findSome?_congr {α β : Type} {l : List α} {f g : α → Option β}
    (h : ∀ a ∈ l, f a = g a) : l.findSome? f = l.findSome? g := by
  rw [← List.head?_filterMap, ← List.head?_filterMap, List.filterMap_congr h]

theorem any_congr {α : Type} {o : Option α} {p q : α → Bool} (h : ∀ a, o = some a → p a = q a) :
    o.any p = o.any q := by
  cases ho : o with
  | none => rfl
  | some a => exact h a ho

namespace Tree

/-- The tree `t'` is `t` with one more function declaration at its end, whose name and
identifiers are new. -/
structure Extends (t' t : Tree) : Prop where
  /-- The old tree is that of a program. -/
  program : t.type Table.root = .program
  /-- Its nodes are within its source. -/
  within : ∀ node ∈ t.nodes, node.start ≤ t.source.size ∧ node.stop ≤ t.source.size
  /-- Text is appended to the source. -/
  source : ∃ text, t'.source = t.source ++ text
  /-- Rows are appended to the table. -/
  rows : ∃ nodes, t'.nodes = t.nodes ++ nodes
  /-- The first of them is a named function declaration, a child of the root. -/
  declaration : t'.parent? t.size = some Table.root ∧ t'.type t.size = .functionDeclaration ∧
    t'.isNamed t.size = true
  /-- All others are inside it. -/
  inside : ∀ n p, t.size < n → t'.parent? n = some p → t.size ≤ p
  /-- Its name and the identifiers inside it are not spelled like an identifier of the old
  tree. -/
  fresh : ∀ n m, t.size ≤ n → (t'.type n = .identifier ∨ t'.child? t.size .name = some n) →
    m < t.size → (t.type m).isIdentifier = true → t'.text n ≠ t.text m

/-- A node of the table other than the root. -/
def IsInner (t : Tree) (n : Nat) : Prop :=
  n < t.size ∧ n ≠ Table.root

theorem IsInner.of_parent? {t : Tree} {n p : Nat} (h : t.parent? n = some p) : t.IsInner n := by
  refine ⟨Table.lt_size_of_parent? h, ?_⟩
  rintro rfl
  exact Nat.not_lt_zero _ (Table.parent?_lt h)

theorem IsInner.of_child? {t : Tree} {n c : Nat} {field : Field} (h : t.child? n field = some c) :
    t.IsInner c :=
  .of_parent? (parent?_of_child? h)

theorem IsInner.of_first? {t : Tree} {n c : Nat} (h : t.first? n = some c) : t.IsInner c :=
  .of_parent? (parent?_of_first? h)

theorem IsInner.of_mem_contents {t : Tree} {n c : Nat} (h : c ∈ t.contents n) : t.IsInner c :=
  .of_parent? (mem_contents.mp h).1

/-- The children of a node are the rows that name it as their parent. -/
theorem children_eq_filter {t : Tree} {n : Nat} (h : n < t.size) :
    t.children n = (List.range t.size).filter (t.parent? · == some n) := by
  rw [children, t.childIndex_eq, Array.getD_eq_getD_getElem?]
  simp [h, Table.childrenOf]

namespace Extends
variable {t t' : Tree} (h : t'.Extends t) {n : Nat}
include h

theorem size_lt : t.size < t'.size :=
  Table.lt_size_of_parent? h.declaration.1

theorem lt_size (hn : n < t.size) : n < t'.size :=
  hn.trans h.size_lt

/-! ## Single nodes -/

theorem node_eq (hn : n < t.size) : t'.nodes[n]? = t.nodes[n]? := by
  obtain ⟨nodes, hnodes⟩ := h.rows
  rw [hnodes, Array.getElem?_append_left hn]

theorem type_eq (hn : n < t.size) : t'.type n = t.type n := by
  rw [Table.type, h.node_eq hn, Table.type]

theorem isNamed_eq (hn : n < t.size) : t'.isNamed n = t.isNamed n := by
  rw [Table.isNamed, h.node_eq hn, Table.isNamed]

theorem field?_eq (hn : n < t.size) : t'.field? n = t.field? n := by
  rw [Table.field?, h.node_eq hn, Table.field?]

theorem parent?_eq (hn : n < t.size) : t'.parent? n = t.parent? n := by
  rw [Table.parent?, h.node_eq hn, Table.parent?]

theorem text_eq (hn : n < t.size) : t'.text n = t.text n := by
  obtain ⟨text, hsource⟩ := h.source
  have hnode := Array.getElem?_eq_getElem hn
  have hstop := (h.within _ (Array.getElem_mem hn)).2
  rw [Table.text, Table.text, Table.bytes, Table.bytes, h.node_eq hn, hnode, hsource]
  simp [Array.extract_append, hstop]

theorem span_eq (hn : n < t.size) : t'.span n = t.span n := by
  obtain ⟨text, hsource⟩ := h.source
  have hnode := Array.getElem?_eq_getElem hn
  obtain ⟨hstart, hstop⟩ := h.within _ (Array.getElem_mem hn)
  have hoffset {offset : Nat} (hle : offset ≤ t.source.size) :
      Position.ofOffset t'.source offset = Position.ofOffset t.source offset := by
    rw [Position.ofOffset, hsource, Array.toList_append,
      List.take_append_of_le_length (by simpa using hle), Position.ofOffset]
  rw [Table.span, Table.span, h.node_eq hn, hnode]
  simp only [hoffset hstart, hoffset hstop]

theorem inner_of_type (hn : n < t.size) (htype : t.type n ≠ .program) : t.IsInner n := by
  refine ⟨hn, ?_⟩
  rintro rfl
  exact htype h.program

/-- What is of interest to the analysis is not the root. -/
theorem inner_of_construct (hconstruct : t.construct n ≠ .other) : t.IsInner n := by
  refine h.inner_of_type (lt_size_of_construct hconstruct) fun htype => hconstruct ?_
  rw [construct, htype]
  split <;> rfl

/-! ## Children -/

/-- Only the root has a new child. -/
theorem children_eq_append (hn : n < t.size) :
    t'.children n = t.children n ++ if n = Table.root then [t.size] else [] := by
  obtain ⟨k, hk⟩ : ∃ k, t'.size = t.size + (k + 1) :=
    ⟨t'.size - t.size - 1, by have := h.size_lt; omega⟩
  rw [children_eq_filter (h.lt_size hn), children_eq_filter hn, hk, List.range_add,
    List.filter_append]
  congr 1
  · refine List.filter_congr fun c hc => ?_
    rw [h.parent?_eq (List.mem_range.mp hc)]
  · -- of the new rows only the first one names an old node as its parent
    have hrest : ((List.range k).map (t.size + ·.succ)).filter (t'.parent? · == some n) = [] := by
      refine List.filter_eq_nil_iff.mpr fun c hc => ?_
      obtain ⟨i, -, rfl⟩ := List.mem_map.mp hc
      intro hp
      have hle := h.inside (t.size + i.succ) n (by omega) (by simpa using hp)
      omega
    have hmap : (List.range (k + 1)).map (t.size + ·) =
        t.size :: (List.range k).map (t.size + ·.succ) := by
      rw [List.range_succ_eq_map, List.map_cons, List.map_map]
      rfl
    rw [hmap, List.filter_cons, hrest, h.declaration.1]
    by_cases hroot : n = Table.root
    · simp [hroot]
    · simp [hroot, Ne.symm hroot]

theorem namedChildren_eq_append (hn : n < t.size) :
    t'.namedChildren n = t.namedChildren n ++ if n = Table.root then [t.size] else [] := by
  rw [namedChildren, h.children_eq_append hn, List.filter_append, namedChildren]
  congr 1
  · refine List.filter_congr fun c hc => ?_
    rw [h.isNamed_eq (Table.lt_size_of_parent? (mem_children.mp hc))]
  · split <;> simp [h.declaration.2.2]

theorem contents_eq_append (hn : n < t.size) :
    t'.contents n = t.contents n ++ if n = Table.root then [t.size] else [] := by
  rw [contents, h.namedChildren_eq_append hn, List.filter_append, contents]
  congr 1
  · refine List.filter_congr fun c hc => ?_
    rw [h.type_eq (Table.lt_size_of_parent? (mem_namedChildren.mp hc).1)]
  · split <;> simp [h.declaration.2.1]

/-! Inner nodes have the children that they had. -/

theorem namedChildren_eq (hn : t.IsInner n) : t'.namedChildren n = t.namedChildren n := by
  rw [h.namedChildren_eq_append hn.1, if_neg hn.2, List.append_nil]

theorem contents_eq (hn : t.IsInner n) : t'.contents n = t.contents n := by
  rw [h.contents_eq_append hn.1, if_neg hn.2, List.append_nil]

theorem first?_eq (hn : t.IsInner n) : t'.first? n = t.first? n := by
  rw [first?, h.contents_eq hn, first?]

theorem child?_eq (hn : t.IsInner n) (field : Field) : t'.child? n field = t.child? n field := by
  rw [child?, h.children_eq_append hn.1, if_neg hn.2, List.append_nil, child?]
  refine List.find?_congr fun c hc => ?_
  rw [h.field?_eq (Table.lt_size_of_parent? (mem_children.mp hc))]

/-! ## Enclosing nodes -/

theorem ancestors_eq (hn : n < t.size) : t'.ancestors n = t.ancestors n := by
  induction n using Nat.strongRecOn with
  | ind n ih =>
    have hp' := h.parent?_eq hn
    cases hp : t.parent? n with
    | none => rw [ancestors_eq_nil hp, ancestors_eq_nil (hp'.trans hp)]
    | some p =>
      have hlt := Table.parent?_lt hp
      rw [ancestors_of_parent? hp, ancestors_of_parent? (hp'.trans hp), ih p hlt (hlt.trans hn)]

theorem owner?_eq (hn : n < t.size) : t'.owner? n = t.owner? n := by
  induction n using Nat.strongRecOn with
  | ind n ih =>
    have hp' := h.parent?_eq hn
    cases hp : t.parent? n with
    | none =>
      cases (Table.parent?_eq_none_iff hn).mp hp
      rw [owner?_root, owner?_root]
    | some p =>
      have hlt := Table.parent?_lt hp
      rw [owner?_of_parent? hp, owner?_of_parent? (hp'.trans hp), ih p hlt (hlt.trans hn),
        h.isNamed_eq hn, h.type_eq hn]

theorem scope_eq (hn : n < t.size) : t'.scope n = t.scope n := by
  rw [scope, scope, h.ancestors_eq hn]
  congr 1
  refine findSome?_congr fun a ha => h.owner?_eq ?_
  exact Nat.lt_of_le_of_lt (le_of_mem_ancestors ha) hn

/-! ## Expressions -/

theorem construct_eq (hn : n < t.size) : t'.construct n = t.construct n := by
  by_cases hroot : n = Table.root
  · -- the root has a child more, but its children do not tell what it is
    subst hroot
    rw [construct, construct, h.isNamed_eq hn, h.type_eq hn, h.program]
    rfl
  · have hlogical : t'.isLogical n = t.isLogical n := by
      rw [isLogical, isLogical, h.child?_eq ⟨hn, hroot⟩]
      refine any_congr fun c hc => ?_
      rw [h.type_eq (lt_size_of_child? hc)]
    rw [construct, construct, h.isNamed_eq hn, h.type_eq hn, hlogical]

theorem unwrap_eq (hn : n < t.size) : t'.unwrap n = t.unwrap n := by
  induction hk : t.size - n using Nat.strongRecOn generalizing n with
  | ind k ih =>
    cases htype : (t.type n).isTransparent with
    | false => rw [unwrap_eq_self htype, unwrap_eq_self (h.type_eq hn ▸ htype)]
    | true =>
      have hinner : t.IsInner n := h.inner_of_type hn fun hprogram => by
        rw [hprogram] at htype
        cases htype
      rw [unwrap_eq_getD htype, unwrap_eq_getD (h.type_eq hn ▸ htype), h.first?_eq hinner]
      congr 1
      refine Option.map_congr fun c hc => ?_
      have hp := parent?_of_first? hc
      exact ih _ (hk ▸ size_sub_lt hp) (Table.lt_size_of_parent? hp) rfl

theorem stringLiteral?_eq (hn : n < t.size) : t'.stringLiteral? n = t.stringLiteral? n := by
  rw [stringLiteral?, stringLiteral?, h.type_eq hn, h.text_eq hn]

theorem keyName?_eq (hn : n < t.size) : t'.keyName? n = t.keyName? n := by
  rw [keyName?, keyName?, h.type_eq hn, h.text_eq hn, h.stringLiteral?_eq hn]

end Extends

end Tree

namespace Descent
variable {t t' : Tree} {d : Descent t} {d' : Descent t'} {n : Nat}

/-- Two descents that go the same way from the inner nodes of the first tree list the same
below each of them. -/
theorem preorder_congr (hnext : ∀ n, t.IsInner n → d'.next n = d.next n) (hn : t.IsInner n) :
    d'.preorder n = d.preorder n := by
  induction hk : t.size - n using Nat.strongRecOn generalizing n with
  | ind k ih =>
    rw [d'.preorder_eq, d.preorder_eq, hnext n hn]
    congr 1
    refine List.flatMap_congr fun c hc => ?_
    have hp := d.parent?_of_mem hc
    exact ih _ (hk ▸ Tree.size_sub_lt hp) (.of_parent? hp) rfl

/-- If there is one node more to go to from the root, what is below it is listed last. -/
theorem preorder_root_of_append (hnext : ∀ n, t.IsInner n → d'.next n = d.next n) {m : Nat}
    (hroot : d'.next Table.root = d.next Table.root ++ [m]) :
    d'.preorder Table.root = d.preorder Table.root ++ d'.preorder m := by
  have hchildren : (d.next Table.root).flatMap d'.preorder =
      (d.next Table.root).flatMap d.preorder :=
    List.flatMap_congr fun c hc => preorder_congr hnext (.of_parent? (d.parent?_of_mem hc))
  rw [d'.preorder_eq, hroot, List.flatMap_append, hchildren, List.flatMap_singleton,
    d.preorder_eq Table.root, List.cons_append]

end Descent

end ComponentScan
