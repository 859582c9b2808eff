import ComponentScan.Tree.Expression

/-!
# Binding targets

A declaration binds the names of its target: a plain identifier, or a pattern that takes
a value apart.  `patternBinding?` searches a pattern for the place that binds a name.
That place is the identifier itself, except that an element `key: name` of an object
pattern is returned as a whole, so that the key can be read off it.
-/

namespace ComponentScan.Tree

/-- The place in a pattern that binds `name`. -/
def patternBinding? (t : Tree) (name : String) (pattern : Nat) : Option Nat :=
  match t.type pattern with
  | .identifier | .shorthandPropertyIdentifierPattern =>
    if t.text pattern = name then some pattern else none
  | .pairPattern =>
    match _h : t.child? pattern .value with
    | none => none
    | some value =>
      if t.type value = .identifier then
        if t.text value = name then some pattern else none
      else t.patternBinding? name value
  | .assignmentPattern | .objectAssignmentPattern =>
    match _h : t.child? pattern .left with
    | none => none
    | some left => t.patternBinding? name left
  | .objectPattern | .arrayPattern | .restPattern =>
    (t.contents pattern).attach.findSome? fun ⟨element, _⟩ => t.patternBinding? name element
  | _ => none
termination_by t.size - pattern
decreasing_by
  · exact size_sub_lt (parent?_of_child? _h)
  · exact size_sub_lt (parent?_of_child? _h)
  · exact size_sub_lt (mem_contents.mp ‹_›).1

/-- The place in a variable declarator that binds `name`: the declarator itself if its
target is a plain identifier. -/
def declaratorBinding? (t : Tree) (name : String) (declarator : Nat) : Option Nat := do
  let target ← t.child? declarator .name
  if t.type target = .identifier then
    if t.text target = name then some declarator else none
  else t.patternBinding? name target

/-- The place in a declaration of variables that binds `name`. -/
def declarationBinding? (t : Tree) (name : String) (declaration : Nat) : Option Nat :=
  ((t.contents declaration).filter (t.type · = .variableDeclarator)).findSome?
    (t.declaratorBinding? name)

/-- The place where one parameter of a function binds `name`.  A parameter with a
default stands for the default. -/
def parameterBinding? (t : Tree) (name : String) (parameter : Nat) : Option Nat :=
  match t.type parameter with
  | .assignmentPattern => do
    let left ← t.child? parameter .left
    if t.type left = .identifier ∧ t.text left = name then
      some ((t.child? parameter .right).getD left)
    else t.patternBinding? name left
  | .requiredParameter | .optionalParameter => do
    let pattern ← t.child? parameter .pattern
    if t.type pattern = .identifier then
      if t.text pattern = name then some ((t.child? parameter .value).getD pattern) else none
    else t.patternBinding? name pattern
  | _ => t.patternBinding? name parameter

/-- The place where a function's parameters bind `name`.  An arrow function may have a
single parameter without parentheses, which then is all there is. -/
def parametersBinding? (t : Tree) (name : String) (function : Nat) : Option Nat :=
  match t.child? function .parameter with
  | some single => if t.text single = name then some single else none
  | none => do
    let parameters ← t.child? function .parameters
    (t.contents parameters).findSome? (t.parameterBinding? name)

end ComponentScan.Tree
