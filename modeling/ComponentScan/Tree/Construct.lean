import ComponentScan.Tree.Basic

/-!
# Constructs

The construct of a node says what the node is for the analysis.  It is read off the
type, with two provisos: an unnamed node is of no interest, whatever its type, and a
binary expression is of interest if its operator gives one of the operands.
-/

namespace ComponentScan

/-- What a node is for the analysis. -/
inductive Construct where
  | functionDeclaration | functionExpression | arrowFunction
  /-- An entry of an object literal or a member of a class. -/
  | property
  | returnStatement | conditional
  /-- A binary expression that gives one of its operands. -/
  | logical
  | call | member | identifier
  /-- An object literal. -/
  | object
  /-- A JSX literal. -/
  | element
  | classDefinition | importStatement | declarator | other
deriving DecidableEq

namespace Construct

/-- The name of a construct. -/
def label : Construct → String
  | .functionDeclaration => "function_declaration"
  | .functionExpression => "function_expression"
  | .arrowFunction => "arrow_function"
  | .property => "property"
  | .returnStatement => "return"
  | .conditional => "conditional"
  | .logical => "logical"
  | .call => "call"
  | .member => "member"
  | .identifier => "identifier"
  | .object => "object"
  | .element => "element"
  | .classDefinition => "class"
  | .importStatement => "import"
  | .declarator => "declarator"
  | .other => "other"

/-- Functions that are values or declarations of their own. -/
def isFunction : Construct → Bool
  | .functionDeclaration | .functionExpression | .arrowFunction => true
  | _ => false

end Construct

/-- The construct that a named node of the given type is; a binary expression is
`logical` or not. -/
def NodeType.construct (logical : Bool) : NodeType → Construct
  | .functionDeclaration | .generatorFunctionDeclaration => .functionDeclaration
  | .functionExpression | .function | .generatorFunction => .functionExpression
  | .arrowFunction => .arrowFunction
  | .pair | .methodDefinition | .fieldDefinition | .publicFieldDefinition => .property
  | .returnStatement => .returnStatement
  | .ternaryExpression => .conditional
  | .binaryExpression => if logical then .logical else .other
  | .callExpression => .call
  | .memberExpression => .member
  | .identifier | .shorthandPropertyIdentifier => .identifier
  | .object => .object
  | .jsxElement | .jsxSelfClosingElement | .jsxFragment => .element
  | .classDeclaration | .classExpression | .abstractClassDeclaration => .classDefinition
  | .importStatement => .importStatement
  | .variableDeclarator => .declarator
  | _ => .other

namespace Tree

/-- Whether the operator of a binary expression gives one of the operands. -/
def isLogical (t : Tree) (n : Nat) : Bool :=
  (t.child? n .operator).any fun operator => (t.type operator).isLogicalOperator

/-- The construct that a node is. -/
def construct (t : Tree) (n : Nat) : Construct :=
  if t.isNamed n then (t.type n).construct (t.isLogical n) else .other

end Tree

end ComponentScan
