import ComponentScan.Tree.Construct

/-!
# Expressions

How an expression is written down matters little: parentheses and type annotations are
looked through (`unwrap`), a string literal stands for its value (`stringLiteral?`), a
property key for the name it spells (`keyName?`), and a chain of member accesses for its
root and the names on the way (`accessChain`).
-/

namespace ComponentScan.Tree

/-- The expression inside all parentheses and wrappers for types only. -/
def unwrap (t : Tree) (n : Nat) : Nat :=
  if (t.type n).isTransparent then
    match _h : t.first? n with
    | some c => t.unwrap c
    | none => n
  else n
termination_by t.size - n
decreasing_by exact size_sub_lt (parent?_of_first? _h)

/-- Unwrapping goes down. -/
theorem le_unwrap (t : Tree) (n : Nat) : n ≤ t.unwrap n := by
  fun_induction unwrap t n with
  | case1 n _ c h ih =>
    have := Table.parent?_lt (parent?_of_first? h)
    omega
  | case2 => exact Nat.le_refl _
  | case3 => exact Nat.le_refl _

/-- The value of a string literal, which is its text without the quotes. -/
def stringLiteral? (t : Tree) (n : Nat) : Option String :=
  if t.type n = .string then some (String.ofList ((t.text n).toList.drop 1).dropLast) else none

/-- The name that a property key spells, unless it is computed. -/
def keyName? (t : Tree) (key : Nat) : Option String :=
  match t.type key with
  | .string => t.stringLiteral? key
  | .propertyIdentifier | .identifier | .number | .privatePropertyIdentifier => some (t.text key)
  | _ => none

/-- Splits `root.a.b` into its root and the names on the way, `a` before `b`.  A name is
missing where the tree has no property, and the root is the member access itself where
it has no object. -/
def accessChain (t : Tree) (n : Nat) : Nat × List (Option String) :=
  let member := t.unwrap n
  if t.type member = .memberExpression then
    let name := (t.child? member .property).map t.text
    match _h : t.child? member .object with
    | none => (member, [name])
    | some object =>
      let (root, names) := t.accessChain object
      (root, names ++ [name])
  else (member, [])
termination_by t.size - n
decreasing_by
  have := size_sub_lt (parent?_of_child? _h)
  have := t.le_unwrap n
  omega

/-- The way a node is shown in log lines: its type and where it starts. -/
def describe (t : Tree) (n : Nat) : String :=
  let start := (t.span n).start
  "NodePath(" ++ (t.type n).label ++ " @ " ++ toString start.line ++ ":" ++ toString start.column
    ++ ")"

end ComponentScan.Tree
