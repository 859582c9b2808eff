import ComponentScan.Binding.Lookup

/-!
# Values

An expression often only names a value that is written elsewhere.  Resolving it follows
the names: an identifier leads to its binding, a declarator to its initial value or to
what is assigned later, an assignment to its right side, and a member access, if its
object is an object literal, to the entry with that name.  The result is the node that
defines the value, or the last node that could be reached.

Bindings may be cyclic, so resolution remembers the nodes that it has entered and stops
where it would enter one again.  `valueWithin` does so under a budget of nested steps;
as no node is entered twice, a budget of one more than the number of nodes is enough,
and `value` allows that.
-/

namespace ComponentScan.Tree

/-! ## Object literals -/

/-- Whether an entry of an object literal has the given name. -/
def isEntryNamed (t : Tree) (name : String) (entry : Nat) : Bool :=
  match t.type entry with
  | .pair => (t.child? entry .key).bind t.keyName? == some name
  | .methodDefinition => (t.child? entry .name).bind t.keyName? == some name
  | .shorthandPropertyIdentifier => t.text entry == name
  | _ => false

/-- The value that an entry gives its name: methods and shorthand entries stand for
themselves. -/
def entryValue? (t : Tree) (entry : Nat) : Option Nat :=
  if t.type entry = .pair then t.child? entry .value else some entry

/-- The value of a name in an object literal, where the last entry with that name
counts. -/
def property? (t : Tree) (object : Nat) (name : String) : Option Nat :=
  ((t.contents object).filter (t.isEntryNamed name)).getLast?.bind t.entryValue?

/-! ## Later assignments -/

/-- The assignment that a statement of the form `name = value` makes. -/
def assignment? (t : Tree) (name : String) (statement : Nat) : Option Nat := do
  guard (t.type statement = .expressionStatement)
  let assignment ← t.first? statement
  guard (t.type assignment = .assignmentExpression)
  let left ← t.child? assignment .left
  guard (t.type left = .identifier ∧ t.text left = name)
  return assignment

/-- The value that a block's last statement of the form `name = value` assigns. -/
def lastAssigned? (t : Tree) (name : String) (block : Nat) : Option Nat :=
  ((t.contents block).filterMap (t.assignment? name)).getLast?.bind (t.child? · .right)

/-- The value assigned last, in the block of its declaration, to the variable of a
declarator. -/
def assignedLater? (t : Tree) (declarator : Nat) : Option Nat := do
  let name ← t.child? declarator .name
  guard (t.type name = .identifier)
  let block ← (t.parent? declarator).bind t.parent?
  t.lastAssigned? (t.text name) block

/-! ## Resolution -/

/-- Where the value of an unwrapped node is to be found. -/
inductive ValueStep where
  /-- The node defines its value itself, as far as can be told. -/
  | done
  /-- The node has the value of another one. -/
  | follow (node : Nat)
  /-- The node has the value of an entry of the object that another node stands for. -/
  | entry (object : Nat) (name : String)

/-- One step towards the value of an unwrapped node. -/
def valueStep (t : Tree) (n : Nat) : ValueStep :=
  match t.type n with
  | .variableDeclarator =>
    match (t.child? n .value).or (t.assignedLater? n) with
    | some value => .follow value
    | none => .done
  | .assignmentExpression =>
    match t.child? n .right with
    | some right => .follow right
    | none => .done
  | .identifier | .shorthandPropertyIdentifier =>
    if t.isNamed n then
      match t.binding? n with
      | some binding => if binding = n then .done else .follow binding
      | none => .done
    else .done
  | .memberExpression =>
    match t.child? n .object, t.child? n .property with
    | some object, some property => .entry object (t.text property)
    | _, _ => .done
  | _ => .done

/-- The node that defines the value of `n`, found by at most `budget` nested steps that
enter no node of `entered`; `none` if the budget is too small. -/
def valueWithin (t : Tree) : (budget : Nat) → (entered : List Nat) → (n : Nat) → Option Nat
  | 0, _, _ => none
  | budget + 1, entered, n =>
    let n := t.unwrap n
    if n ∈ entered then some n
    else
      let entered := n :: entered
      match t.valueStep n with
      | .done => some n
      | .follow next => t.valueWithin budget entered next
      | .entry object name => do
        let object ← t.valueWithin budget entered object
        if t.construct object = .object then
          match t.property? object name with
          | some value => t.valueWithin budget entered value
          | none => some n
        else some n

/-- The node that defines the value of `n`. -/
def value (t : Tree) (n : Nat) : Nat :=
  (t.valueWithin (t.size + 1) [] n).getD n

end ComponentScan.Tree
