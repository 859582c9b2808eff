import ComponentScan.Flow.Search
import ComponentScan.React

/-!
# Stateless components

A function is a stateless component if it can return a UI element.  An entry of an
object literal or a member of a class is judged by its function, unless it belongs to a
component class or to what is handed to a `createClass` call: then it is part of another
component.
-/

namespace ComponentScan.Tree

/-- The calls that take the variable of a declarator as an argument, anywhere in its
block.  Their order is of no account: `isPartOfComponent`, the only one to read them, asks
whether there is any of a kind. -/
def callsTaking (t : Tree) (declarator : Nat) : List Nat :=
  match t.child? declarator .name, (t.ancestors declarator).find? (fun n => (t.type n).isBlock) with
  | some name, some block =>
    if t.type name = .identifier then
      (visit t.contents t.size [block]).filterMap fun n => do
        guard (t.type n = .identifier ∧ t.text n = t.text name)
        let arguments ← t.parent? n
        guard (t.type arguments = .arguments)
        let call ← t.parent? arguments
        guard (t.binding? n = some declarator)
        return call
    else []
  | _, _ => []

/-- What the entry `n` belongs to: its class or object literal.  An object literal that
is an argument is represented by the call, and one that a variable holds also by each
call that takes the variable. -/
def containers (t : Tree) (n : Nat) : List Nat :=
  match t.parent? n with
  | none => []
  | some parent =>
    if t.type parent = .classBody then (t.parent? parent).toList
    else if t.construct parent = .object then
      match t.parent? parent with
      | none => [parent]
      | some holder =>
        match t.type holder, t.parent? holder with
        | .arguments, some call => [call]
        | .variableDeclarator, _ =>
          parent :: if t.child? holder .value = some parent then t.callsTaking holder else []
        | _, _ => [parent]
    else []

/-- Whether an entry is part of a component that is defined as a class. -/
def isPartOfComponent (t : Tree) (n : Nat) : Bool :=
  (t.containers n).any fun container => t.createsClass container || t.isComponentClass container

/-- Whether a node is a function that can return a UI element, and no part of another
component.  A malformed tree gives no evidence. -/
def isStateless (t : Tree) (n : Nat) : Bool :=
  let construct := t.construct n
  (construct.isFunction || construct = .property && !t.isPartOfComponent n)
    && match t.mayReturnElement n with
      | .ok returns => returns
      | .error _ => false

end ComponentScan.Tree
