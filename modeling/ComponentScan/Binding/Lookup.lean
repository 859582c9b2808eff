import ComponentScan.Binding.Target

/-!
# Lexical scoping

A name is looked up outwards: the nearest enclosing node that binds it wins.  Two kinds
of nodes bind names.  A block binds what its statements declare, and a block that is the
body of a function (or the whole program) also what `var` declarations anywhere in that
function do.  A function binds its parameters and, if it is a function expression, its
own name.

The clause of an import binds names in three ways.  A name for the default export and a
name for the whole module stand for the statement; each specifier of a list of named
exports stands for itself.
-/

namespace ComponentScan.Tree

/-! ## Names bound by an import -/

/-- The local name of an import specifier: its alias, if it has one. -/
def specifierLocal? (t : Tree) (specifier : Nat) : Option Nat :=
  (t.child? specifier .alias).or (t.child? specifier .name)

/-- The place where one part of the clause of an import binds `name`. -/
def importPartBinding? (t : Tree) (name : String) (statement part : Nat) : Option Nat :=
  match t.type part with
  | .identifier => if t.text part = name then some statement else none
  | .namespaceImport => do
    let identifier ← t.first? part
    if t.text identifier = name then some statement else none
  | .namedImports =>
    ((t.contents part).filter (t.type · = .importSpecifier)).find? fun specifier =>
      (t.specifierLocal? specifier).any (t.text · = name)
  | _ => none

/-- The place where an import binds `name`. -/
def importBinding? (t : Tree) (name : String) (statement : Nat) : Option Nat := do
  let clause ← (t.contents statement).find? (t.type · = .importClause)
  (t.contents clause).findSome? (t.importPartBinding? name statement)

/-! ## Names bound by a block or a function -/

/-- The declaration behind a statement: an export stands for what it exports. -/
def declaration? (t : Tree) (statement : Nat) : Option Nat :=
  if t.type statement = .exportStatement then t.child? statement .declaration else some statement

/-- The place where a declaration of any kind binds `name`. -/
def statementBinding? (t : Tree) (name : String) (statement : Nat) : Option Nat := do
  let declaration ← t.declaration? statement
  let type := t.type declaration
  if type.isDeclaration then t.declarationBinding? name declaration
  else if type.isFunctionDeclaration || type.isClass then
    if (t.child? declaration .name).any (t.text · = name) then some declaration else none
  else if type = .importStatement then t.importBinding? name declaration
  else none

/-- The place where the statements of a block bind `name`. -/
def blockBinding? (t : Tree) (name : String) (block : Nat) : Option Nat :=
  (t.contents block).findSome? (t.statementBinding? name)

/-- Whether a block is the body of a function, or the whole program. -/
def isHoistingBlock (t : Tree) (block : Nat) : Bool :=
  match t.type block with
  | .program => true
  | .statementBlock => (t.parent? block).any fun parent => (t.type parent).isScope
  | _ => false

/-- The place where a `var` declaration inside the function with this body binds `name`. -/
def hoistedBinding? (t : Tree) (name : String) (body : Nat) : Option Nat :=
  if t.isHoistingBlock body then
    (t.hoistedDeclarations body).findSome? (t.declarationBinding? name)
  else none

/-- A function expression binds its own name. -/
def ownNameBinding? (t : Tree) (name : String) (function : Nat) : Option Nat :=
  if t.construct function = .functionExpression
      ∧ (t.child? function .name).any (t.text · = name) then
    some function
  else none

/-- The place where an enclosing node binds `name`, if that node binds names at all. -/
def scopeBinding? (t : Tree) (name : String) (n : Nat) : Option Nat :=
  let type := t.type n
  if type.isBlock then (t.blockBinding? name n).or (t.hoistedBinding? name n)
  else if type.isScope then (t.parametersBinding? name n).or (t.ownNameBinding? name n)
  else none

/-- The place that binds the name which a node spells. -/
def binding? (t : Tree) (n : Nat) : Option Nat :=
  (t.ancestors n).findSome? (t.scopeBinding? (t.text n))

end ComponentScan.Tree
