/-!
# Fields

A node may hold a child under a field, such as the `name` of a declaration.  `Field` has
a constructor for every field that the analysis asks for, and `other` for all the rest.
-/

namespace ComponentScan

/-- The role under which a node holds a child. -/
inductive Field where
  | name | value | key | body | parameter | parameters | pattern | arguments | function | object
  | property | left | right | operator | consequence | alternative | declaration | source | alias
  /-- A field that no rule of the analysis mentions. -/
  | other (label : String)
deriving DecidableEq

namespace Field

/-- The grammar's spelling of a field. -/
def label : Field → String
  | .name => "name"
  | .value => "value"
  | .key => "key"
  | .body => "body"
  | .parameter => "parameter"
  | .parameters => "parameters"
  | .pattern => "pattern"
  | .arguments => "arguments"
  | .function => "function"
  | .object => "object"
  | .property => "property"
  | .left => "left"
  | .right => "right"
  | .operator => "operator"
  | .consequence => "consequence"
  | .alternative => "alternative"
  | .declaration => "declaration"
  | .source => "source"
  | .alias => "alias"
  | .other label => label

/-- All fields that some rule mentions. -/
def known : List Field := [
  .name, .value, .key, .body, .parameter, .parameters, .pattern, .arguments, .function, .object,
  .property, .left, .right, .operator, .consequence, .alternative, .declaration, .source, .alias]

/-- The field that the grammar spells `label`. -/
def ofLabel (label : String) : Field :=
  (known.find? (·.label == label)).getD (.other label)

/-- Reading a spelling loses nothing. -/
@[simp]
theorem label_ofLabel (s : String) : (ofLabel s).label = s := by
  unfold ofLabel
  cases h : known.find? (·.label == s) with
  | none => rfl
  | some field => simpa using List.find?_some h

end Field

end ComponentScan
