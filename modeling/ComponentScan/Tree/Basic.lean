import ComponentScan.Text.Quoted
import ComponentScan.Tree.Table

/-!
# Trees

A `Tree` is a table together with the children and the owner of each of its nodes, so
that both are found at once.  This module moves about in a tree.  Going down, there are
three kinds of children: all of them (`children`), the named ones (`namedChildren`), and
the named ones that are no comments (`contents`), which are what a rule of the language
is made of.  Going up, there are the `ancestors`.

The **scope** of a node (`scope`) is the function that encloses it: its owner, or, for a
node without one, the owner of the nearest ancestor that has one.

Several questions are answered by visiting a part of a tree (`visit`).  A traversal keeps
a list of pending nodes: it visits the first of them and puts the nodes that this one
leads to in front of the others.  So a node comes before all that it leads to, and this
before all that was pending already: the nodes are visited in pre-order.
-/

namespace ComponentScan

/-- A syntax tree, with what is looked up most. -/
structure Tree extends Table where
  /-- The children of every node. -/
  childIndex : Array (List Nat)
  /-- The owner of every node that has one. -/
  owners : Array (Option Nat)
  /-- The children are those of the table. -/
  childIndex_eq : childIndex = (Array.range toTable.size).map toTable.childrenOf
  /-- The owners are those of the table. -/
  owners_eq : owners = toTable.ownersOf

/-- The tree that a table describes. -/
def Table.toTree (t : Table) : Tree where
  toTable := t
  childIndex := (Array.range t.size).map t.childrenOf
  owners := t.ownersOf
  childIndex_eq := rfl
  owners_eq := rfl

namespace Tree

/-- The tree with the given rows, if they are in order. -/
def ofNodes? (source : Array UInt8) (nodes : Array Node) : Option Tree :=
  (Table.ofNodes? source nodes).map Table.toTree

/-! ## Going down -/

/-- The children of a node, in the order of their rows. -/
def children (t : Tree) (n : Nat) : List Nat :=
  t.childIndex.getD n []

/-- The named children of a node. -/
def namedChildren (t : Tree) (n : Nat) : List Nat :=
  (t.children n).filter t.isNamed

/-- The named children of a node that are no comments. -/
def contents (t : Tree) (n : Nat) : List Nat :=
  (t.namedChildren n).filter (t.type · ≠ .comment)

/-- The first of a node's contents. -/
def first? (t : Tree) (n : Nat) : Option Nat :=
  (t.contents n).head?

/-- The first child, named or not, that a node holds under a field. -/
def child? (t : Tree) (n : Nat) (field : Field) : Option Nat :=
  (t.children n).find? (t.field? · == some field)

theorem mem_children {t : Tree} {n c : Nat} : c ∈ t.children n ↔ t.parent? c = some n := by
  unfold children
  rw [t.childIndex_eq, Array.getD_eq_getD_getElem?]
  by_cases h : n < t.size
  · simp [h, Table.mem_childrenOf]
  · simp only [Array.getElem?_map, Array.getElem?_range, h, if_false, Option.map_none,
      Option.getD_none, List.not_mem_nil, false_iff]
    intro hp
    have := Table.parent?_lt hp
    have := Table.lt_size_of_parent? hp
    omega

theorem mem_namedChildren {t : Tree} {n c : Nat} :
    c ∈ t.namedChildren n ↔ t.parent? c = some n ∧ t.isNamed c = true := by
  simp [namedChildren, mem_children]

theorem mem_contents {t : Tree} {n c : Nat} :
    c ∈ t.contents n ↔ t.parent? c = some n ∧ t.isNamed c = true ∧ t.type c ≠ .comment := by
  simp [contents, mem_namedChildren, and_assoc]

theorem parent?_of_first? {t : Tree} {n c : Nat} (h : t.first? n = some c) :
    t.parent? c = some n :=
  (mem_contents.mp (List.mem_of_head? h)).1

theorem parent?_of_child? {t : Tree} {n c : Nat} {field : Field}
    (h : t.child? n field = some c) : t.parent? c = some n :=
  mem_children.mp (List.mem_of_find?_eq_some h)

/-- Going down brings the end of the table closer. -/
theorem size_sub_lt {t : Tree} {n c : Nat} (h : t.parent? c = some n) :
    t.size - c < t.size - n := by
  have := Table.parent?_lt h
  have := Table.lt_size_of_parent? h
  omega

/-! ## Missing children -/

/-- A node lacks a child that cannot be done without. -/
structure MissingChild where
  /-- The type of the node. -/
  type : NodeType
  /-- The field under which nothing is held. -/
  field : Field
deriving DecidableEq

/-- The message for a missing child. -/
def MissingChild.message (missing : MissingChild) : String :=
  missing.type.label ++ " node has no " ++ Quoted.quote missing.field.label ++ " child"

/-- The child under a field, or the complaint that there is none. -/
def require (t : Tree) (n : Nat) (field : Field) : Except MissingChild Nat :=
  match t.child? n field with
  | some c => .ok c
  | none => .error ⟨t.type n, field⟩

/-! ## Going up -/

/-- The nodes that enclose a node, from its parent up to the root. -/
def ancestors (t : Tree) (n : Nat) : List Nat :=
  match _h : t.parent? n with
  | none => []
  | some p => p :: t.ancestors p
termination_by n
decreasing_by exact Table.parent?_lt _h

/-- The function that owns a node, or the root; only nodes that are linked to the root
by named nodes have an owner. -/
def owner? (t : Tree) (n : Nat) : Option Nat :=
  t.owners[n]?.join

/-- The function that encloses a node, or the root if none does. -/
def scope (t : Tree) (n : Nat) : Nat :=
  ((n :: t.ancestors n).findSome? t.owner?).getD Table.root

/-! ## Visiting a part of a tree -/

/-- Visits at most `limit` nodes, the first pending one first, and after each the nodes
that `next` gives for it. -/
def visit (next : Nat → List Nat) : (limit : Nat) → (pending : List Nat) → List Nat
  | 0, _ => []
  | _ + 1, [] => []
  | limit + 1, n :: pending => n :: visit next limit (next n ++ pending)

/-- All nodes that are linked to the root by named nodes, in source order. -/
def nodesInOrder (t : Tree) : List Nat :=
  visit t.namedChildren t.size [Table.root]

/-- The `var` declarations below `body` that are outside the functions below it, in
source order. -/
def hoistedDeclarations (t : Tree) (body : Nat) : List Nat :=
  let next n := if (t.type n).isScope then [] else t.namedChildren n
  (visit next t.size (t.namedChildren body)).filter (t.type · = .variableDeclaration)

end Tree

end ComponentScan
