import ComponentScan.Origin

/-!
# The React API

The modules whose exports count as the React API, and what the analysis looks for in
them.  The name of a React module may be written in any mixture of upper and lower case.

A call is recognised by its callee: a member access such as `React.createElement`, or an
identifier that was imported by that name.  In both cases the callee has to come from
the right module.  A class is a component if it extends one of React's base classes,
named as a member of the React API or imported from it.
-/

namespace ComponentScan

namespace React

/-- Modules whose exports are the React API. -/
def moduleNames : List String :=
  ["react", "react/addons", "react-native", "preact", "preact/compat"]

/-- Modules of the automatic JSX runtime. -/
def runtimeModules : List String := ["react/jsx-runtime", "react/jsx-dev-runtime"]

/-- The element factories of the automatic JSX runtime. -/
def runtimeFactories : List String := ["jsx", "jsxs", "jsxDEV"]

/-- Modules that export a function for creating classes. -/
def createClassModules : List String := ["create-react-class"]

/-- Functions that go through the children of an element. -/
def childrenIterators : List String := ["map"]

/-- Classes that component classes extend. -/
def baseClasses : List String := ["Component", "PureComponent"]

/-- Whether a module with this name is the React API.  Lowering the case of ASCII
letters is enough: no other character has one of the letters of these names as its lower
case. -/
def isModuleName (name : String) : Bool :=
  moduleNames.contains (name.map Char.toLower)

end React

namespace Tree

/-! ## Calls -/

/-- Whether a node comes from a module of the React API. -/
def isFromReact (t : Tree) (n : Nat) : Bool :=
  (t.moduleOf? n).any React.isModuleName

/-- The call that a node is; a statement stands for its expression. -/
def call? (t : Tree) (n : Nat) : Option Nat := do
  let n := t.unwrap n
  let call ← if t.type n = .expressionStatement then (t.first? n).map t.unwrap else some n
  guard (t.construct call = .call)
  return call

/-- The callee of the call that a node is. -/
def callee? (t : Tree) (n : Nat) : Option Nat := do
  let call ← t.call? n
  (t.child? call .function).map t.unwrap

/-- A call `React.name(…)`, or a call of what was imported as `name` from React. -/
def callsReact (t : Tree) (name : String) (n : Nat) : Bool :=
  match t.callee? n with
  | none => false
  | some callee =>
    match t.type callee with
    | .memberExpression =>
      match t.child? callee .property, t.child? callee .object with
      | some property, some object => t.text property == name && t.isFromReact object
      | _, _ => false
    | .identifier => t.exportName? callee == some name && t.isFromReact callee
    | _ => false

/-- A call of an element factory of the automatic JSX runtime. -/
def callsRuntime (t : Tree) (n : Nat) : Bool :=
  (t.callee? n).any fun callee =>
    t.type callee = .identifier
      && (t.exportName? callee).any React.runtimeFactories.contains
      && (t.moduleOf? callee).any React.runtimeModules.contains

/-- A call that creates an element. -/
def createsElement (t : Tree) (n : Nat) : Bool :=
  t.callsReact "createElement" n || t.callsRuntime n

/-- A call that copies an element. -/
def clonesElement (t : Tree) (n : Nat) : Bool :=
  t.callsReact "cloneElement" n

/-- Whether a node is `React.Children`, or `Children` imported from React. -/
def isChildrenNamespace (t : Tree) (n : Nat) : Bool :=
  match t.type n with
  | .memberExpression =>
    (t.child? n .property).any (t.text · = "Children") && t.isFromReact n
  | .identifier => t.exportName? n == some "Children" && t.isFromReact n
  | _ => false

/-- A call `React.Children.map(…)` or `Children.map(…)`. -/
def mapsChildren (t : Tree) (n : Nat) : Bool :=
  (t.callee? n).any fun callee =>
    t.type callee = .memberExpression
      && (t.child? callee .property).any (React.childrenIterators.contains <| t.text ·)
      && (t.child? callee .object).any (t.isChildrenNamespace <| t.unwrap ·)

/-- A call `React.createClass(…)`, or a call of what `create-react-class` exports. -/
def createsClass (t : Tree) (n : Nat) : Bool :=
  t.callsReact "createClass" n
    || (t.callee? n).any fun callee =>
      t.type callee = .identifier && (t.moduleOf? callee).any React.createClassModules.contains

/-- The object literal that is handed to a call as its first argument, directly or
through names. -/
def specObject? (t : Tree) (call : Nat) : Option Nat := do
  let argument ← (t.child? call .arguments).bind t.first?
  let spec := t.value argument
  guard (t.construct spec = .object)
  return spec

/-! ## Component classes -/

/-- What a class extends.  The grammar for types puts it into a clause of its own. -/
def superclass? (t : Tree) (n : Nat) : Option Nat := do
  let heritage ← (t.contents n).find? (t.type · = .classHeritage)
  let extended ← t.first? heritage
  let expression ←
    if t.type extended = .extendsClause then (t.child? extended .value).or (t.first? extended)
    else some extended
  return t.unwrap expression

/-- A class that extends a base class of React. -/
def isComponentClass (t : Tree) (n : Nat) : Bool :=
  let definition := t.unwrap n
  t.construct definition = .classDefinition && (t.superclass? definition).any fun superclass =>
    let value := t.value superclass
    if t.type value = .memberExpression then
      (t.child? value .property).any (React.baseClasses.contains <| t.text ·)
        && t.isFromReact value
    else
      t.type superclass = .identifier
        && (t.exportName? superclass).any React.baseClasses.contains
        && t.isFromReact superclass

end Tree

end ComponentScan
