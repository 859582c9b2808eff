import Mathlib.Data.List.Flatten
import Mathlib.Data.List.Pairwise
import ComponentScan.Proofs.Binding.Place

/-! # Tables laid out as a parse

A table may be anything that hangs together.  The table of a parse is `LaidOut`: its rows are in
pre-order, and its offsets follow the tree.  Then of two nodes the earlier one encloses the
later one, or it ends where the later one has not begun
(`LaidOut.encloses_or_stop_le`).  So nodes are visited in the order of their rows
(`LaidOut.pairwise_lt_nodesInOrder`), and a later node does not start at an earlier place
(`LaidOut.start_le`).
-/
namespace ComponentScan

/-- In an increasing list, what comes later is what is greater. -/
theorem pairwise_iff_of_pairwise_lt {l : List Nat} {R : Nat → Nat → Prop}
    (hl : l.Pairwise (· < ·)) : l.Pairwise R ↔ ∀ m ∈ l, ∀ n ∈ l, m < n → R m n := by
  constructor
  · intro h
    have himp : l.Pairwise fun m n => m < n → R m n :=
      h.imp fun {m n} (hR : R m n) (_ : m < n) => hR
    have hflip : l.Pairwise (flip fun m n => m < n → R m n) :=
      hl.imp fun hlt hgt => absurd hlt (Nat.lt_asymm hgt)
    have hself : ∀ m ∈ l, m < m → R m m := fun m _ hlt => absurd hlt (Nat.lt_irrefl m)
    exact fun m hm n hn => himp.forall_of_forall_of_flip hself hflip hm hn
  · intro h
    exact hl.imp_of_mem fun {m n} hm hn hlt => h m hm n hn hlt

/-! ## Places and offsets -/

namespace Position

/-- Behind more bytes is a later place. -/
theorem after_le_after_append (before more : List UInt8) :
    after before ≤ after (before ++ more) := by
  have hline : (after (before ++ more)).line = before.count 0x0A + more.count 0x0A :=
    List.count_append
  rcases Nat.eq_zero_or_pos (more.count 0x0A) with hnone | hsome
  · -- the bytes stay in the line, so the column grows by all of them
    refine .inr ⟨by rw [hline, hnone]; rfl, ?_⟩
    have hall : ∀ byte ∈ more.reverse, (byte != 0x0A) = true := by
      intro byte hbyte
      refine bne_iff_ne.mpr fun heq => List.count_eq_zero.mp hnone ?_
      exact heq ▸ List.mem_reverse.mp hbyte
    simp only [after, List.reverse_append, List.takeWhile_append_of_pos hall, List.length_append]
    omega
  · exact .inl (by rw [hline]; exact Nat.lt_add_of_pos_right hsome)

theorem ofOffset_le_ofOffset (source : Array UInt8) {a b : Nat} (h : a ≤ b) :
    ofOffset source a ≤ ofOffset source b := by
  have hsplit := List.take_append_drop a (source.toList.take b)
  rw [List.take_take, Nat.min_eq_left h] at hsplit
  rw [ofOffset, ofOffset, ← hsplit]
  exact after_le_after_append _ _

end Position

namespace Descent

/-- From a node to all its children. -/
def children (t : Tree) : Descent t where
  next := t.children
  parent?_of_mem := Tree.mem_children.mp
  nodup := t.nodup_children

/-- A descent that leads to fewer nodes leaves out some of the pre-order. -/
theorem preorder_sublist {t : Tree} {d e : Descent t} (h : ∀ n, (d.next n).Sublist (e.next n))
    (n : Nat) : (d.preorder n).Sublist (e.preorder n) := by
  induction hk : t.size - n using Nat.strongRecOn generalizing n with
  | ind k ih =>
    rw [d.preorder_eq n, e.preorder_eq n]
    refine List.Sublist.cons_cons n (.trans ?_ ((h n).flatMap e.preorder))
    refine List.Sublist.flatMap_right _ fun c hc => ?_
    exact ih _ (hk ▸ Tree.size_sub_lt (d.parent?_of_mem hc)) c rfl

end Descent

namespace Tree

/-- The offset of a node's first byte. -/
def startOffset (t : Tree) (n : Nat) : Nat :=
  (t.nodes[n]?.map Node.start).getD 0

/-- The offset right behind a node's last byte. -/
def stopOffset (t : Tree) (n : Nat) : Nat :=
  (t.nodes[n]?.map Node.stop).getD 0

/-- The table is one that a parser makes. -/
structure LaidOut (t : Tree) : Prop where
  /-- The rows are in pre-order. -/
  rows : (Descent.children t).preorder Table.root = List.range t.size
  /-- Every node covers a part of the source. -/
  covers : ∀ n < t.size, t.startOffset n ≤ t.stopOffset n ∧ t.stopOffset n ≤ t.source.size
  /-- It is within the part that its parent covers. -/
  nested : ∀ n < t.size, ∀ p ∈ t.parent? n,
    t.startOffset p ≤ t.startOffset n ∧ t.stopOffset n ≤ t.stopOffset p
  /-- The children of a node cover one part after the other. -/
  siblings : ∀ p < t.size, (t.children p).Pairwise fun a b => t.stopOffset a ≤ t.startOffset b

section Layout
variable {t : Tree} {a b n : Nat}

theorem start_span (t : Tree) (n : Nat) :
    (t.span n).start = .ofOffset t.source (t.startOffset n) := by
  unfold Table.span startOffset
  cases t.nodes[n]? <;> rfl

/-- What starts at a smaller offset starts at an earlier place. -/
theorem start_span_le (h : t.startOffset a ≤ t.startOffset b) :
    (t.span a).start ≤ (t.span b).start := by
  rw [start_span, start_span]
  exact Position.ofOffset_le_ofOffset _ h

namespace LaidOut

/-- What a node encloses is within the part that the node covers. -/
theorem nested_of_encloses (h : t.LaidOut) (hn : n < t.size) (ha : t.Encloses a n) :
    t.startOffset a ≤ t.startOffset n ∧ t.stopOffset n ≤ t.stopOffset a := by
  -- up the chain of parents, each of which stands in an earlier row
  induction n using Nat.strongRecOn with
  | ind n ih =>
    rcases List.mem_cons.mp ha with rfl | ha
    · exact ⟨Nat.le_refl _, Nat.le_refl _⟩
    · cases hp : t.parent? n with
      | none => rw [ancestors_eq_nil hp] at ha; cases ha
      | some p =>
        rw [ancestors_of_parent? hp] at ha
        obtain ⟨hstart, hstop⟩ := h.nested n hn p hp
        obtain ⟨hstart', hstop'⟩ := ih p (Table.parent?_lt hp) (parent_lt_size hp) ha
        omega

/-- In the pre-order of a node, each node encloses what comes later, or ends before it. -/
theorem pairwise_preorder (h : t.LaidOut) (hn : n < t.size) :
    ((Descent.children t).preorder n).Pairwise fun a b =>
      t.Encloses a b ∨ t.stopOffset a ≤ t.startOffset b := by
  induction hk : t.size - n using Nat.strongRecOn generalizing n with
  | ind k ih =>
    have hparent {c : Nat} (hc : c ∈ (Descent.children t).next n) : t.parent? c = some n :=
      (Descent.children t).parent?_of_mem hc
    have hencloses {a m : Nat} (hm : m ∈ (Descent.children t).preorder a) : t.Encloses a m :=
      ((Descent.children t).mem_preorder.mp hm).mem_ancestors
    rw [Descent.preorder_eq, List.pairwise_cons, List.pairwise_flatMap]
    refine ⟨fun m hm => .inl ?_, fun c hc => ?_, ?_⟩
    · obtain ⟨c, hc, hm⟩ := List.mem_flatMap.mp hm
      exact (Encloses.of_parent? (hparent hc)).trans (hencloses hm)
    · exact ih _ (hk ▸ size_sub_lt (hparent hc)) (Table.lt_size_of_parent? (hparent hc)) rfl
    · -- what is below two different children is within their parts
      refine (h.siblings n hn).imp_of_mem fun {c c'} hc hc' hle m hm m' hm' => .inr ?_
      have hm := hencloses hm
      have hm' := hencloses hm'
      have hlt := hm.lt_size (Table.lt_size_of_parent? (hparent hc))
      have hlt' := hm'.lt_size (Table.lt_size_of_parent? (hparent hc'))
      calc t.stopOffset m ≤ t.stopOffset c := (h.nested_of_encloses hlt hm).2
        _ ≤ t.startOffset c' := hle
        _ ≤ t.startOffset m' := (h.nested_of_encloses hlt' hm').1

/-- **Of two nodes, the earlier one encloses the later one or ends before it.** -/
theorem encloses_or_stop_le (h : t.LaidOut) (hlt : a < b) (hb : b < t.size) :
    t.Encloses a b ∨ t.stopOffset a ≤ t.startOffset b := by
  have hrows : (List.range t.size).Pairwise _ := h.rows ▸ h.pairwise_preorder t.nonempty
  exact (pairwise_iff_of_pairwise_lt List.pairwise_lt_range).mp hrows
    a (List.mem_range.mpr (Nat.lt_trans hlt hb)) b (List.mem_range.mpr hb) hlt

/-- A later node does not start at a smaller offset. -/
theorem start_le (h : t.LaidOut) (hlt : a < b) (hb : b < t.size) :
    t.startOffset a ≤ t.startOffset b := by
  rcases h.encloses_or_stop_le hlt hb with hencloses | hends
  · exact (h.nested_of_encloses hb hencloses).1
  · exact Nat.le_trans (h.covers a (Nat.lt_trans hlt hb)).1 hends

/-- Nodes are visited in the order of their rows. -/
theorem pairwise_lt_nodesInOrder (h : t.LaidOut) : t.nodesInOrder.Pairwise (· < ·) := by
  have hsub := Descent.preorder_sublist (d := Descent.namedChildren t) (e := Descent.children t)
    (fun n => List.filter_sublist) Table.root
  rw [h.rows, ← (Descent.namedChildren t).visit_eq_preorder] at hsub
  exact List.pairwise_lt_range.sublist hsub

end LaidOut

end Layout

end Tree

end ComponentScan
