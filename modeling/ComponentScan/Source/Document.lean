import ComponentScan.Tree.Basic

/-!
# Documents

A document is a syntax tree with the language it was written in.  The rows of the tree
are made by the grammar of that language, which is not part of this library: they come
along with the text.

The language is told from the name of the file: by what follows the last dot of the
path, in any mixture of upper and lower case.
-/

namespace ComponentScan

/-- A language of source files. -/
inductive Language where
  | javascript | typescript | tsx
deriving DecidableEq

namespace Language

/-- The name of a language. -/
def label : Language → String
  | .javascript => "javascript"
  | .typescript => "typescript"
  | .tsx => "tsx"

/-- The language of files with the given extension. -/
def ofExtension? : String → Option Language
  | "js" | "jsx" | "mjs" | "cjs" => some .javascript
  | "ts" | "mts" | "cts" => some .typescript
  | "tsx" => some .tsx
  | _ => none

/-- The language of the file at a path.  Lowering the case of ASCII letters is enough:
no other character has one of the letters of these extensions as its lower case. -/
def ofPath? (path : String) : Option Language :=
  let extension := (path.toList.reverse.takeWhile (· ≠ '.')).reverse
  if path.toList.contains '.' then
    ofExtension? (String.ofList (extension.map Char.toLower))
  else none

end Language

/-- A source that can be inspected. -/
structure Document where
  /-- The language it is written in. -/
  language : Language
  /-- Its syntax tree. -/
  tree : Tree

/-- All line ends as line feeds: a carriage return, with or without a line feed after
it, is one line end. -/
def unifyLineEnds : List Char → List Char
  | [] => []
  | '\r' :: '\n' :: rest => '\n' :: unifyLineEnds rest
  | '\r' :: rest => '\n' :: unifyLineEnds rest
  | c :: rest => c :: unifyLineEnds rest

namespace Document

/-- The text of a file with the given bytes. -/
def textOfBytes (bytes : Array UInt8) : String :=
  String.ofList (unifyLineEnds (Utf8.decode bytes.toList).toList)

/-- The document with the given text and rows, if the path tells its language. -/
def ofText? (path text : String) (nodes : Array Node) : Option Document := do
  let language ← Language.ofPath? path
  let tree ← Tree.ofNodes? (Utf8.encode text) nodes
  return { language, tree }

/-- The text of a document. -/
def text (document : Document) : String :=
  Utf8.decode document.tree.source.toList

end Document

end ComponentScan
