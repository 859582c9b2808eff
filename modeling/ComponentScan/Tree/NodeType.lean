/-!
# Node types

Every node of a syntax tree has a type, a word of the grammar that built the tree.  The
analysis asks about some of them only; `NodeType` has a constructor for each of those,
and `other` for all the rest.  Some questions are about a group of types ("does this
node establish a function scope?"); each group is a predicate here.

A keyword token can have the type of a node (`function`, `class`), so a type alone does
not say that a node is a function or a class; `Construct` does.
-/

namespace ComponentScan

/-- The grammar's word for what a node is. -/
inductive NodeType where
  | functionDeclaration | generatorFunctionDeclaration | functionExpression | function
  | generatorFunction | arrowFunction | methodDefinition | pair | fieldDefinition
  | publicFieldDefinition | jsxElement | jsxSelfClosingElement | jsxFragment | classDeclaration
  | classExpression | abstractClassDeclaration | classBody | classHeritage | extendsClause
  | identifier | shorthandPropertyIdentifier | propertyIdentifier | privatePropertyIdentifier
  | computedPropertyName | string | number | comment | parenthesizedExpression | asExpression
  | satisfiesExpression | nonNullExpression | instantiationExpression | program | statementBlock
  | switchCase | switchDefault | lexicalDeclaration | variableDeclaration | variableDeclarator
  | expressionStatement | assignmentExpression | exportStatement | returnStatement
  | ternaryExpression | binaryExpression | callExpression | arguments | memberExpression | object
  | andOperator | orOperator | nullishOperator | objectPattern | arrayPattern | pairPattern
  | shorthandPropertyIdentifierPattern | objectAssignmentPattern | assignmentPattern | restPattern
  | formalParameters | requiredParameter | optionalParameter | importStatement | importClause
  | namedImports | importSpecifier | namespaceImport
  /-- A type that no rule of the analysis mentions. -/
  | other (label : String)
deriving DecidableEq

namespace NodeType

/-- The grammar's spelling of a type. -/
def label : NodeType → String
  | .functionDeclaration => "function_declaration"
  | .generatorFunctionDeclaration => "generator_function_declaration"
  | .functionExpression => "function_expression"
  | .function => "function"
  | .generatorFunction => "generator_function"
  | .arrowFunction => "arrow_function"
  | .methodDefinition => "method_definition"
  | .pair => "pair"
  | .fieldDefinition => "field_definition"
  | .publicFieldDefinition => "public_field_definition"
  | .jsxElement => "jsx_element"
  | .jsxSelfClosingElement => "jsx_self_closing_element"
  | .jsxFragment => "jsx_fragment"
  | .classDeclaration => "class_declaration"
  | .classExpression => "class"
  | .abstractClassDeclaration => "abstract_class_declaration"
  | .classBody => "class_body"
  | .classHeritage => "class_heritage"
  | .extendsClause => "extends_clause"
  | .identifier => "identifier"
  | .shorthandPropertyIdentifier => "shorthand_property_identifier"
  | .propertyIdentifier => "property_identifier"
  | .privatePropertyIdentifier => "private_property_identifier"
  | .computedPropertyName => "computed_property_name"
  | .string => "string"
  | .number => "number"
  | .comment => "comment"
  | .parenthesizedExpression => "parenthesized_expression"
  | .asExpression => "as_expression"
  | .satisfiesExpression => "satisfies_expression"
  | .nonNullExpression => "non_null_expression"
  | .instantiationExpression => "instantiation_expression"
  | .program => "program"
  | .statementBlock => "statement_block"
  | .switchCase => "switch_case"
  | .switchDefault => "switch_default"
  | .lexicalDeclaration => "lexical_declaration"
  | .variableDeclaration => "variable_declaration"
  | .variableDeclarator => "variable_declarator"
  | .expressionStatement => "expression_statement"
  | .assignmentExpression => "assignment_expression"
  | .exportStatement => "export_statement"
  | .returnStatement => "return_statement"
  | .ternaryExpression => "ternary_expression"
  | .binaryExpression => "binary_expression"
  | .callExpression => "call_expression"
  | .arguments => "arguments"
  | .memberExpression => "member_expression"
  | .object => "object"
  | .andOperator => "&&"
  | .orOperator => "||"
  | .nullishOperator => "??"
  | .objectPattern => "object_pattern"
  | .arrayPattern => "array_pattern"
  | .pairPattern => "pair_pattern"
  | .shorthandPropertyIdentifierPattern => "shorthand_property_identifier_pattern"
  | .objectAssignmentPattern => "object_assignment_pattern"
  | .assignmentPattern => "assignment_pattern"
  | .restPattern => "rest_pattern"
  | .formalParameters => "formal_parameters"
  | .requiredParameter => "required_parameter"
  | .optionalParameter => "optional_parameter"
  | .importStatement => "import_statement"
  | .importClause => "import_clause"
  | .namedImports => "named_imports"
  | .importSpecifier => "import_specifier"
  | .namespaceImport => "namespace_import"
  | .other label => label

/-- All types that some rule mentions. -/
def known : List NodeType := [
  .functionDeclaration, .generatorFunctionDeclaration, .functionExpression, .function,
  .generatorFunction, .arrowFunction, .methodDefinition, .pair, .fieldDefinition,
  .publicFieldDefinition, .jsxElement, .jsxSelfClosingElement, .jsxFragment, .classDeclaration,
  .classExpression, .abstractClassDeclaration, .classBody, .classHeritage, .extendsClause,
  .identifier, .shorthandPropertyIdentifier, .propertyIdentifier, .privatePropertyIdentifier,
  .computedPropertyName, .string, .number, .comment, .parenthesizedExpression, .asExpression,
  .satisfiesExpression, .nonNullExpression, .instantiationExpression, .program, .statementBlock,
  .switchCase, .switchDefault, .lexicalDeclaration, .variableDeclaration, .variableDeclarator,
  .expressionStatement, .assignmentExpression, .exportStatement, .returnStatement,
  .ternaryExpression, .binaryExpression, .callExpression, .arguments, .memberExpression, .object,
  .andOperator, .orOperator, .nullishOperator, .objectPattern, .arrayPattern, .pairPattern,
  .shorthandPropertyIdentifierPattern, .objectAssignmentPattern, .assignmentPattern, .restPattern,
  .formalParameters, .requiredParameter, .optionalParameter, .importStatement, .importClause,
  .namedImports, .importSpecifier, .namespaceImport]

/-- The type that the grammar spells `label`. -/
def ofLabel (label : String) : NodeType :=
  (known.find? (·.label == label)).getD (.other label)

/-- Reading a spelling loses nothing. -/
@[simp]
theorem label_ofLabel (s : String) : (ofLabel s).label = s := by
  unfold ofLabel
  cases h : known.find? (·.label == s) with
  | none => rfl
  | some type => simpa using List.find?_some h

/-! ## Groups of types -/

/-- Function declarations. -/
def isFunctionDeclaration : NodeType → Bool
  | .functionDeclaration | .generatorFunctionDeclaration => true
  | _ => false

/-- Types of nodes that establish a function scope of their own.  Some releases of the
grammars call a function expression just `function`. -/
def isScope : NodeType → Bool
  | .functionDeclaration | .generatorFunctionDeclaration => true
  | .functionExpression | .function | .generatorFunction => true
  | .arrowFunction | .methodDefinition => true
  | _ => false

/-- JSX literals. -/
def isElement : NodeType → Bool
  | .jsxElement | .jsxSelfClosingElement | .jsxFragment => true
  | _ => false

/-- Classes. -/
def isClass : NodeType → Bool
  | .classDeclaration | .classExpression | .abstractClassDeclaration => true
  | _ => false

/-- Identifiers that are used as a value. -/
def isIdentifier : NodeType → Bool
  | .identifier | .shorthandPropertyIdentifier => true
  | _ => false

/-- Operators that give one of their operands. -/
def isLogicalOperator : NodeType → Bool
  | .andOperator | .orOperator | .nullishOperator => true
  | _ => false

/-- Wrappers that do not change the value of the expression inside. -/
def isTransparent : NodeType → Bool
  | .parenthesizedExpression | .asExpression | .satisfiesExpression => true
  | .nonNullExpression | .instantiationExpression => true
  | _ => false

/-- Blocks, whose statements may declare names. -/
def isBlock : NodeType → Bool
  | .program | .statementBlock | .switchCase | .switchDefault => true
  | _ => false

/-- Declarations of variables. -/
def isDeclaration : NodeType → Bool
  | .lexicalDeclaration | .variableDeclaration => true
  | _ => false

/-- Parts of a destructuring target. -/
def isPattern : NodeType → Bool
  | .objectPattern | .arrayPattern | .pairPattern | .shorthandPropertyIdentifierPattern => true
  | .objectAssignmentPattern | .assignmentPattern | .restPattern => true
  | _ => false

/-- Parts of the clause of an import. -/
def isImportPart : NodeType → Bool
  | .importClause | .namedImports | .importSpecifier | .namespaceImport => true
  | _ => false

end NodeType

end ComponentScan
