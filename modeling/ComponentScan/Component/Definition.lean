import ComponentScan.Component.Stateless

/-!
# Component definitions

All components that a tree defines, in the order in which their nodes are visited:
functions that are stateless components, classes that extend a base class of React, and
`createClass` calls.  A function that is the value of an entry is judged as that entry,
and members of classes are no components of their own.
-/

namespace ComponentScan

/-- How a component is defined. -/
inductive ComponentForm where
  | stateless | classBased | createClass
deriving DecidableEq

/-- The name of a form. -/
def ComponentForm.label : ComponentForm → String
  | .stateless => "stateless"
  | .classBased => "class"
  | .createClass => "create_class"

/-- The definition of a component in a tree. -/
structure Definition where
  /-- How the component is defined. -/
  form : ComponentForm
  /-- The node that was judged, which also gives the component its name. -/
  subject : Nat
  /-- The node where the component is said to be. -/
  site : Nat
deriving DecidableEq

namespace Tree

/-- The node to judge for a function: the entry that has it as its value, if there is
one.  The values of class members are not judged at all. -/
def judgedNode? (t : Tree) (function : Nat) : Option Nat :=
  match t.parent? function with
  | none => some function
  | some parent =>
    if t.construct parent = .property then
      if (t.parent? parent).any (t.type · = .classBody) then none else some parent
    else some function

/-- The component that a node defines. -/
def definitionAt? (t : Tree) (n : Nat) : Option Definition :=
  match t.construct n with
  | .functionDeclaration | .functionExpression | .arrowFunction => do
    let candidate ← t.judgedNode? n
    guard (t.isStateless candidate)
    return ⟨.stateless, candidate, n⟩
  | .property => do
    guard (t.type n = .methodDefinition ∧ (t.parent? n).any (t.construct · = .object))
    guard (t.isStateless n)
    return ⟨.stateless, n, n⟩
  | .classDefinition => do
    guard (t.isComponentClass n)
    return ⟨.classBased, n, n⟩
  | .call => do
    guard (t.createsClass n)
    return ⟨.createClass, n, (t.specObject? n).getD n⟩
  | _ => none

/-- All components that a tree defines. -/
def definitions (t : Tree) : List Definition :=
  t.nodesInOrder.filterMap t.definitionAt?

end Tree

end ComponentScan
