import ComponentScan.Tree.Basic

/-! # Owners, one node at a time

The owners of all nodes are computed in one pass over the rows.  An entry is made from the
entry of the parent, which stands in an earlier row and is not changed any more.  So the
owner of a node satisfies a recursion over the chain of its parents (`owner?_eq`).
-/
namespace ComponentScan

namespace Table
variable (t : Table)

/-- The entries of the first `k` rows. -/
def ownersBefore (k : Nat) : Array (Option Nat) :=
  (List.range k).foldl (fun owners n => owners.push (t.ownerEntry owners n)) #[]

theorem ownersBefore_succ (k : Nat) : t.ownersBefore (k + 1) =
    (t.ownersBefore k).push (t.ownerEntry (t.ownersBefore k) k) := by
  rw [ownersBefore, List.range_succ, List.foldl_append]
  rfl

@[simp] theorem size_ownersBefore (k : Nat) : (t.ownersBefore k).size = k := by
  induction k with
  | zero => rfl
  | succ k ih => rw [ownersBefore_succ, Array.size_push, ih]

/-- Later rows change no entry. -/
theorem getElem?_ownersBefore {n k : Nat} (h : n < k) :
    (t.ownersBefore k)[n]? = some (t.ownerEntry (t.ownersBefore n) n) := by
  induction k with
  | zero => omega
  | succ k ih =>
    rw [ownersBefore_succ, Array.getElem?_push, size_ownersBefore]
    by_cases hk : n = k
    · rw [if_pos hk, hk]
    · rw [if_neg hk, ih (by omega)]

end Table

namespace Tree
variable {t : Tree} {n p : Nat}

theorem owner?_eq_ownerEntry (hn : n < t.size) :
    t.owner? n = t.ownerEntry (t.ownersBefore n) n := by
  rw [owner?, t.owners_eq, Table.ownersOf, ← Table.ownersBefore, t.getElem?_ownersBefore hn,
    Option.join_some]

theorem size_owners (t : Tree) : t.owners.size = t.size := by
  rw [t.owners_eq, Table.ownersOf, ← Table.ownersBefore, Table.size_ownersBefore]

/-- Only nodes of the table have an owner. -/
theorem owner?_eq_none (hn : t.size ≤ n) : t.owner? n = none := by
  rw [owner?, Array.getElem?_eq_none (t.size_owners ▸ hn)]
  rfl

theorem lt_size_of_owner? {owner : Nat} (h : t.owner? n = some owner) : n < t.size := by
  refine Nat.lt_of_not_le fun hn => ?_
  rw [owner?_eq_none hn] at h
  cases h

theorem root_lt_size (t : Tree) : Table.root < t.size :=
  t.nonempty

/-- The root belongs to itself. -/
theorem owner?_root (t : Tree) : t.owner? Table.root = some Table.root := by
  have hp : t.parent? Table.root = none := (Table.parent?_eq_none_iff t.root_lt_size).mpr rfl
  simp [owner?_eq_ownerEntry t.root_lt_size, Table.ownerEntry, hp]

/-- **A named node belongs to itself, if it is a function, or else to the owner of its
parent**; an unnamed node has no owner. -/
theorem owner?_of_parent? (hp : t.parent? n = some p) :
    t.owner? n = if t.isNamed n then
      (t.owner? p).map fun owner => if (t.type n).isScope then n else owner else none := by
  have hlt := Table.parent?_lt hp
  have hn := Table.lt_size_of_parent? hp
  have hentry : (t.ownersBefore n)[p]?.join = t.owner? p := by
    rw [t.getElem?_ownersBefore hlt, Option.join_some, owner?_eq_ownerEntry (Nat.lt_trans hlt hn)]
  rw [owner?_eq_ownerEntry hn, Table.ownerEntry, hp]
  cases t.isNamed n <;> simp [hentry]

/-- A named child belongs to itself, or to what its parent belongs to. -/
theorem owner?_child {c owner : Nat} (hn : t.owner? n = some owner)
    (hc : c ∈ t.namedChildren n) :
    t.owner? c = some (if (t.type c).isScope then c else owner) := by
  obtain ⟨hparent, hnamed⟩ := mem_namedChildren.mp hc
  rw [owner?_of_parent? hparent, if_pos hnamed, hn, Option.map_some]

end Tree

end ComponentScan
