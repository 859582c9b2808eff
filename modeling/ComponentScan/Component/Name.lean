import ComponentScan.Component.Definition

/-!
# Names of components

A component is called by its own name, or else by the variable, the assignment target or
the key that it is the value of.  The other way round, `named?` finds the node that a
name belongs to.
-/

namespace ComponentScan

/-- A text without the quotation marks at both ends. -/
def stripQuotes (text : String) : String :=
  let isQuote (c : Char) : Bool := c = '"' || c = '\''
  String.ofList ((text.toList.dropWhile isQuote).reverse.dropWhile isQuote).reverse

/-- A component as it is reported. -/
structure Component where
  /-- How the component is defined. -/
  form : ComponentForm
  /-- Its name, if it can be told. -/
  name? : Option String
  /-- Where it is. -/
  span : Span
deriving DecidableEq

namespace Tree

/-! ## From a node to its name -/

/-- The name that a node itself carries, unless it is computed. -/
def ownName? (t : Tree) (n : Nat) : Option String := do
  let name ← ((t.child? n .name).or (t.child? n .key)).or (t.child? n .property)
  guard (t.type name ≠ .computedPropertyName)
  return stripQuotes (t.text name)

/-- Nodes between a value and what it is the value of. -/
def isValueWrapper : NodeType → Bool
  | .parenthesizedExpression | .callExpression | .arguments | .asExpression => true
  | _ => false

/-- The name of what a node is the value of. -/
def holderName? (t : Tree) (n : Nat) : Option String := do
  let holder ← (t.ancestors n).find? fun ancestor => !isValueWrapper (t.type ancestor)
  match t.type holder with
  | .variableDeclarator => do
    let name ← t.child? holder .name
    guard (t.type name = .identifier)
    return t.text name
  | .assignmentExpression => (t.child? holder .left).map t.text
  | .pair => (t.child? holder .key).map (stripQuotes <| t.text ·)
  | .exportStatement => some "default"
  | _ => none

/-- The name of a component, as well as it can be told.  A call has no name of its own. -/
def componentName? (t : Tree) (n : Nat) : Option String :=
  if t.type n = .callExpression then t.holderName? n else (t.ownName? n).or (t.holderName? n)

/-- The report of a definition. -/
def component (t : Tree) (definition : Definition) : Component where
  form := definition.form
  name? := t.componentName? definition.subject
  span := t.span definition.site

/-- All components that a tree defines, as they are reported. -/
def components (t : Tree) : List Component :=
  t.definitions.map t.component

/-! ## From a name to a node -/

/-- The node that `n` gives the name `name` to. -/
def namedAt? (t : Tree) (name : String) (n : Nat) : Option Nat :=
  match t.type n with
  | .functionDeclaration | .generatorFunctionDeclaration | .methodDefinition =>
    if (t.child? n .name).any (t.text · = name) then some n else none
  | .variableDeclarator =>
    if (t.child? n .name).any (t.text · = name) then (t.child? n .value).map t.unwrap else none
  | .pair =>
    if (t.child? n .key).any (fun key => stripQuotes (t.text key) = name) then some n else none
  | _ => none

/-- The first declaration, declarator value or entry called `name`. -/
def named? (t : Tree) (name : String) : Option Nat :=
  t.nodesInOrder.findSome? (t.namedAt? name)

end Tree

end ComponentScan
