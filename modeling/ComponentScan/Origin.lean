import ComponentScan.Value

/-!
# The module behind a value

A value may come from another module, by an import or by a call of `require`.
`moduleOf?` finds the name of that module: it goes from an expression step by step to
where it comes from, until an import or such a call is reached.  Like resolution of
values, it enters no node twice.

`exportName?` tells what an identifier is called in the module it comes from.
-/

namespace ComponentScan.Tree

/-- Where an unwrapped node comes from. -/
inductive OriginStep where
  /-- It comes from the module with this name, or from nowhere. -/
  | done (module? : Option String)
  /-- It comes from where another node does. -/
  | follow (node : Nat)

/-- The origin of the node `next`, if there is one. -/
def OriginStep.ofNode? : (next : Option Nat) → OriginStep
  | some next => .follow next
  | none => .done none

/-- The import or declarator that a part of an import or of a pattern belongs to.  A
pattern among the parameters of a function belongs to none. -/
def bindingStatement? (t : Tree) (part : Nat) : Option Nat := do
  let stop ← (t.ancestors part).find? fun n =>
    let type := t.type n
    type = .importStatement || type = .variableDeclarator || type = .formalParameters
      || type.isScope
  guard (t.type stop = .importStatement ∨ t.type stop = .variableDeclarator)
  return stop

/-- Whether a node is the identifier `require`. -/
def isRequire (t : Tree) (n : Nat) : Bool :=
  t.type n = .identifier && t.text n == "require"

/-- One step towards the module that an unwrapped node comes from. -/
def originStep (t : Tree) (n : Nat) : OriginStep :=
  let type := t.type n
  if type = .variableDeclarator then .ofNode? (t.child? n .value)
  else if type = .callExpression then
    match t.child? n .function with
    | none => .done none
    | some function =>
      if t.isRequire function then
        .done (((t.child? n .arguments).bind t.first?).bind t.stringLiteral?)
      else .follow function
  else if type = .importStatement then .done ((t.child? n .source).bind t.stringLiteral?)
  else if type.isImportPart || type.isPattern then .ofNode? (t.bindingStatement? n)
  else if type = .identifier ∧ (t.parent? n).any (fun parent => (t.type parent).isPattern) then
    .ofNode? (t.parent? n)
  else if t.construct n = .identifier then
    let value := t.value n
    if value = n then .done none else .follow value
  else if type = .memberExpression then .follow (t.accessChain n).1
  else .done none

/-- The module that `n` comes from, found by at most `budget` steps that enter no node
of `entered`; `none` if the budget is too small. -/
def moduleWithin (t : Tree) : (budget : Nat) → (entered : List Nat) → (n : Nat) →
    Option (Option String)
  | 0, _, _ => none
  | budget + 1, entered, n =>
    let n := t.unwrap n
    if n ∈ entered then some none
    else
      match t.originStep n with
      | .done module? => some module?
      | .follow next => t.moduleWithin budget (n :: entered) next

/-- The name of the module that a node comes from. -/
def moduleOf? (t : Tree) (n : Nat) : Option String :=
  (t.moduleWithin (t.size + 1) [] n).join

/-- The name under which the binding place `binding` takes something out of a module or
an object. -/
def exportNameAt? (t : Tree) (binding : Nat) : Option String :=
  match t.type binding with
  | .importSpecifier => (t.child? binding .name).map t.text
  | .shorthandPropertyIdentifierPattern => some (t.text binding)
  | .pairPattern => (t.child? binding .key).bind t.keyName?
  | _ => none

/-- The name that an identifier has where it comes from, if it was taken from there by
name. -/
def exportName? (t : Tree) (n : Nat) : Option String :=
  let n := t.unwrap n
  if t.construct n = .identifier then (t.binding? n).bind t.exportNameAt? else none

end ComponentScan.Tree
