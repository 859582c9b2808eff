import ComponentScan.Text.Utf8
import ComponentScan.Text.Position
import ComponentScan.Tree.NodeType
import ComponentScan.Tree.Field

/-!
# Node tables

A syntax tree comes as a table with one row for each node.  The number of a row is the
identity of its node.  A row names its node's parent, which stands in an earlier row;
only row 0, the root, has none.  So every chain of parents ends at the root, and many
definitions below simply follow it.  Nothing else is promised: types, fields and offsets
are arbitrary, and the rows need not be in the order of the source.

Two tables are read off the rows once and for all: the children of every node
(`childrenOf`), and the function that owns it (`ownersOf`).  A function owns the nodes
that it encloses, apart from those of the functions inside it.  Ownership passes along
named nodes only: an unnamed node, such as a keyword, has no entry, and neither has
anything below it.

As a text, a table has a line for each row (`Node.ofLines?`).  A row has six columns,
separated by tabs: the type, the number of the parent (nothing for the root), the two
offsets, the field (nothing if there is none), and `1` for a named node or `0` for any
other.
-/

namespace ComponentScan

/-- One row of a table. -/
structure Node where
  /-- What the grammar calls the node. -/
  type : NodeType
  /-- The node that holds this one, if any. -/
  parent : Option Nat
  /-- The offset of the node's first byte in the source. -/
  start : Nat
  /-- The offset right behind the node's last byte. -/
  stop : Nat
  /-- The field under which the parent holds the node, if any. -/
  field : Option Field
  /-- Whether the node is a rule of the grammar rather than a mere token. -/
  named : Bool
deriving DecidableEq

/-- A node may stand in row `i` if its parent stands before it; without a parent it is
the root. -/
def Node.FitsAt (node : Node) (i : Nat) : Prop :=
  match node.parent with
  | none => i = 0
  | some p => p < i

instance (node : Node) (i : Nat) : Decidable (node.FitsAt i) :=
  match h : node.parent with
  | none => decidable_of_iff (i = 0) (by simp [Node.FitsAt, h])
  | some p => decidable_of_iff (p < i) (by simp [Node.FitsAt, h])

/-- A syntax tree over a source, as a table of rows. -/
structure Table where
  /-- The bytes that the tree was built from. -/
  source : Array UInt8
  /-- The rows. -/
  nodes : Array Node
  /-- There is a root. -/
  nonempty : 0 < nodes.size
  /-- Every parent stands before its children. -/
  ordered : ∀ i (h : i < nodes.size), nodes[i].FitsAt i

namespace Table

/-- The table with the given rows, if they are in order. -/
def ofNodes? (source : Array UInt8) (nodes : Array Node) : Option Table :=
  if h : 0 < nodes.size ∧ ∀ i (h : i < nodes.size), nodes[i].FitsAt i then
    some { source, nodes, nonempty := h.1, ordered := h.2 }
  else none

/-- The number of nodes. -/
abbrev size (t : Table) : Nat := t.nodes.size

/-- The root of every table. -/
def root : Nat := 0

/-- The type of a node; a number without a row has a type that nothing mentions. -/
def type (t : Table) (n : Nat) : NodeType :=
  match t.nodes[n]? with
  | some node => node.type
  | none => .other ""

/-- Whether a node is named. -/
def isNamed (t : Table) (n : Nat) : Bool :=
  match t.nodes[n]? with
  | some node => node.named
  | none => false

/-- The field under which a node is held. -/
def field? (t : Table) (n : Nat) : Option Field :=
  t.nodes[n]?.bind Node.field

/-- The parent of a node. -/
def parent? (t : Table) (n : Nat) : Option Nat :=
  t.nodes[n]?.bind Node.parent

/-- The bytes of a node.  Offsets behind the end of the source stand for its end. -/
def bytes (t : Table) (n : Nat) : List UInt8 :=
  match t.nodes[n]? with
  | some node => (t.source.extract node.start node.stop).toList
  | none => []

/-- The text of a node. -/
def text (t : Table) (n : Nat) : String :=
  Utf8.decode (t.bytes n)

/-- The part of the source that a node covers. -/
def span (t : Table) (n : Nat) : Span :=
  match t.nodes[n]? with
  | some node => ⟨.ofOffset t.source node.start, .ofOffset t.source node.stop⟩
  | none => ⟨.ofOffset t.source 0, .ofOffset t.source 0⟩

/-- Parents stand before their children. -/
theorem parent?_lt {t : Table} {n p : Nat} (h : t.parent? n = some p) : p < n := by
  obtain ⟨node, hnode, hp⟩ := Option.bind_eq_some_iff.mp h
  obtain ⟨hn, rfl⟩ := Array.getElem?_eq_some_iff.mp hnode
  have := t.ordered n hn
  simpa [Node.FitsAt, hp] using this

/-- Only nodes of the table have a parent. -/
theorem lt_size_of_parent? {t : Table} {n p : Nat} (h : t.parent? n = some p) : n < t.size := by
  obtain ⟨node, hnode, -⟩ := Option.bind_eq_some_iff.mp h
  exact (Array.getElem?_eq_some_iff.mp hnode).1

/-- The root is the only node without a parent. -/
theorem parent?_eq_none_iff {t : Table} {n : Nat} (h : n < t.size) :
    t.parent? n = none ↔ n = root := by
  have hfit := t.ordered n h
  rw [parent?, Array.getElem?_eq_getElem h, Option.bind_some]
  unfold Node.FitsAt at hfit
  split at hfit
  · next hnone => exact ⟨fun _ => hfit, fun _ => hnone⟩
  · next p hsome =>
    rw [hsome]
    simp only [reduceCtorEq, root, false_iff]
    omega

/-! ## Children -/

/-- The children of `p`: the rows that name `p` as their parent. -/
def childrenOf (t : Table) (p : Nat) : List Nat :=
  (List.range t.size).filter fun c => t.parent? c == some p

theorem mem_childrenOf {t : Table} {p c : Nat} : c ∈ t.childrenOf p ↔ t.parent? c = some p := by
  simp only [childrenOf, List.mem_filter, List.mem_range, beq_iff_eq, and_iff_right_iff_imp]
  exact lt_size_of_parent?

/-! ## Owners -/

/-- The entry of node `n`, given the entries of the nodes before it.  The root owns what
no function encloses. -/
def ownerEntry (t : Table) (earlier : Array (Option Nat)) (n : Nat) : Option Nat :=
  let inherited :=
    match t.parent? n with
    | none => some root
    | some p => if t.isNamed n then earlier[p]?.join else none
  inherited.map fun owner => if (t.type n).isScope then n else owner

/-- The owner of every node, as far as it has one.  Parents come first, so one pass is
enough. -/
def ownersOf (t : Table) : Array (Option Nat) :=
  (List.range t.size).foldl (fun owners n => owners.push (t.ownerEntry owners n)) #[]

end Table

/-! ## Rows as text -/

namespace Node

/-- A number, or nothing for an empty column. -/
def column? (text : String) : Option (Option Nat) :=
  if text = "" then some none else text.toNat?.map some

/-- The row that a line gives. -/
def ofLine? (line : String) : Option Node :=
  match line.splitOn "\t" with
  | [type, parent, start, stop, field, named] => do
    return {
      type := .ofLabel type
      parent := ← column? parent
      start := ← start.toNat?
      stop := ← stop.toNat?
      field := if field = "" then none else some (.ofLabel field)
      named := named = "1" }
  | _ => none

/-- The rows that a text gives. -/
def ofLines? (text : String) : Option (Array Node) := do
  let rows ← ((text.splitOn "\n").filter (· ≠ "")).mapM ofLine?
  return rows.toArray

end Node

end ComponentScan
