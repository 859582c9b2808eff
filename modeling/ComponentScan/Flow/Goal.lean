import ComponentScan.React

/-!
# The flow of values

Whether a function can return a UI element is a question about a graph.  Its vertices
are expressions and functions (`Goal`); an edge says that the value of the one may be
the value of the other.  A conditional leads to both branches, a logical expression to
both operands, a call to the function it calls, and a function to what it returns.
Elements are UI elements by themselves; so is, for want of evidence, the result of
calling an entry that a namespace object lacks.

A tree may be malformed: a call without a callee or an arrow function without a body.
Then the edges cannot be told, and the answer is which child is missing.
-/

namespace ComponentScan

/-- A vertex of the graph: what may turn out to be a UI element. -/
inductive Goal where
  /-- A UI element for certain. -/
  | success
  /-- The value of an expression. -/
  | value (expression : Nat)
  /-- What a function returns. -/
  | function (function : Nat)
deriving DecidableEq

namespace Tree

/-- A JSX literal, or a call that makes elements. -/
def isElement (t : Tree) (n : Nat) : Bool :=
  match t.construct n with
  | .element => true
  | .call => t.createsElement n || t.clonesElement n || t.mapsChildren n
  | _ => false

/-! ## Functions -/

/-- The function whose returns decide about a node: the node itself, or the value of an
entry. -/
def decidingFunction? (t : Tree) (n : Nat) : Option Nat :=
  let n := t.unwrap n
  let construct := t.construct n
  if construct.isFunction || construct = .property && t.type n = .methodDefinition then some n
  else if construct = .property then
    ((t.child? n .value).map t.unwrap).filter fun value => (t.construct value).isFunction
  else none

/-- The nodes inside a function, itself first, in source order.  A return that the
function does not own is left out with all that it holds. -/
def functionNodes (t : Tree) (function : Nat) : List Nat :=
  visit (fun n =>
    if t.construct n = .returnStatement ∧ t.scope n ≠ t.scope function then [] else t.contents n)
    t.size [function]

/-- The return statements that a function owns, in source order. -/
def ownedReturns (t : Tree) (function : Nat) : List Nat :=
  (t.functionNodes function).filter fun n =>
    t.construct n = .returnStatement ∧ t.scope n = t.scope function

/-- The values that the return statements of a function give. -/
def returnGoals (t : Tree) (function : Nat) : List Goal :=
  ((t.ownedReturns function).filterMap t.first?).map .value

/-- What a function leads to: its body, if it is an expression, or else what it returns. -/
def functionGoals (t : Tree) (function : Nat) : Except MissingChild (List Goal) :=
  if t.construct function = .arrowFunction then do
    let body ← t.require function .body
    if t.type body = .statementBlock then return t.returnGoals function else return [.value body]
  else return t.returnGoals function

/-! ## Calls -/

/-- The entry that a chain of names leads to, from an object literal on; names that are
missing are skipped, and entries that are identifiers stand for their values. -/
def namespaceEntry? (t : Tree) (object : Nat) (names : List (Option String)) : Option Nat :=
  names.reduceOption.foldlM (fun target name => do
    let entry ← t.property? target name
    return if t.construct entry = .identifier then t.value entry else entry) object

/-- What calling a member of a namespace object leads to.  An entry that cannot be found
could still be a component. -/
def namespaceGoals (t : Tree) (callee : Nat) : List Goal :=
  if t.type callee = .memberExpression then
    let (root, names) := t.accessChain callee
    let object := t.value root
    if t.construct object = .object then
      match t.namespaceEntry? object names with
      | none => [.success]
      | some entry => (t.decidingFunction? entry).toList.map .function
    else []
  else []

/-- What a call leads to. -/
def callGoals (t : Tree) (call : Nat) : Except MissingChild (List Goal) := do
  let callee := t.value (← t.require call .function)
  return (t.decidingFunction? callee).toList.map .function ++ t.namespaceGoals callee

/-- What an unwrapped expression leads to whose value is `value`. -/
def valueGoals (t : Tree) (expression value : Nat) : Except MissingChild (List Goal) :=
  let held (fields : List Field) := (fields.filterMap (t.child? value)).map Goal.value
  match t.construct value with
  | .conditional => .ok (held [.consequence, .alternative])
  | .logical => .ok (held [.left, .right])
  | construct =>
    if value ≠ expression ∧ t.isElement value then .ok [.success]
    else if construct = .call then t.callGoals value
    else .ok []

end Tree

end ComponentScan
