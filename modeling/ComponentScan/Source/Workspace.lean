import ComponentScan.Source.Document
import ComponentScan.Source.Location

/-!
# Reading files

A `Workspace` is a working directory held in memory: some files, each with the rows of
its syntax tree, and some directories.  Reading follows a location name by name; the
first name that leads nowhere decides how the reading fails.  Nothing is known of what
lies outside the working directory, apart from the directories that lead to it.
-/

namespace ComponentScan

/-- Why a file cannot be read. -/
inductive ReadFault where
  | notFound | isDirectory | notDirectory | nameTooLong
  /-- Any other reason, with the number and the text that the system gives. -/
  | other (code : Nat) (reason : String)
deriving DecidableEq

namespace ReadFault

/-- The number by which systems know a fault. -/
def code : ReadFault → Nat
  | .notFound => 2
  | .notDirectory => 20
  | .isDirectory => 21
  | .nameTooLong => 36
  | .other code _ => code

/-- A fault in words. -/
def reason : ReadFault → String
  | .notFound => "No such file or directory"
  | .notDirectory => "Not a directory"
  | .isDirectory => "Is a directory"
  | .nameTooLong => "File name too long"
  | .other _ reason => reason

end ReadFault

/-- A file that cannot be read. -/
structure ReadError where
  /-- Why not. -/
  fault : ReadFault
  /-- Where the file was looked for. -/
  location : Location

/-- The message for a file that cannot be read. -/
def ReadError.message (e : ReadError) : String :=
  "[Errno " ++ toString e.fault.code ++ "] " ++ e.fault.reason ++ ": "
    ++ Quoted.quote e.location.text

/-- A file with the rows of its syntax tree; a file in an unknown language has none. -/
structure SourceFile where
  /-- The bytes of the file. -/
  content : Array UInt8
  /-- The rows of the tree of its text. -/
  nodes : Array Node := #[]

/-- The files and directories of a working directory, each by the names that lead to it. -/
structure Workspace where
  /-- The files; of two with the same names the later one counts. -/
  files : List (List String × SourceFile) := []
  /-- Directories, besides those that the files are in. -/
  directories : List (List String) := []

/-- Where the names of a location have led to. -/
inductive Place where
  /-- To the file or directory with these names in the working directory. -/
  | inside (parts : List String)
  /-- To a directory outside of the working directory. -/
  | outside

namespace Workspace

/-- The longest name, in bytes, that a file or directory can have. -/
def nameLimit : Nat := 255

/-- The longest path, in bytes, that is followed at all. -/
def pathLimit : Nat := 4095

/-- The file with the given names. -/
def file? (w : Workspace) (parts : List String) : Option SourceFile :=
  ((w.files.filter (·.1 = parts)).getLast?).map (·.2)

/-- Whether the given names lead to a directory. -/
def isDirectory (w : Workspace) (parts : List String) : Bool :=
  parts.isEmpty
    || w.directories.any parts.isPrefixOf
    || w.files.any fun (names, _) => parts.isPrefixOf names && parts ≠ names

/-- Follows one more name. -/
def enter (w : Workspace) (place : Place) (name : String) : Except ReadFault Place :=
  match place with
  | .outside =>
    if name = ".." then .ok .outside
    else if name.utf8ByteSize > nameLimit then .error .nameTooLong
    else .error .notFound
  | .inside parts =>
    let inner := parts ++ [name]
    if !w.isDirectory parts then .error .notDirectory
    else if name = ".." then .ok (if parts = [] then .outside else .inside parts.dropLast)
    else if name.utf8ByteSize > nameLimit then .error .nameTooLong
    else if w.isDirectory inner || (w.file? inner).isSome then .ok (.inside inner)
    else .error .notFound

/-- The file at a location. -/
def read (w : Workspace) (location : Location) : Except ReadFault SourceFile := do
  if location.text.utf8ByteSize > pathLimit then throw .nameTooLong
  let start := if location.anchor = .here then .inside [] else .outside
  match ← location.parts.foldlM w.enter start with
  | .outside => .error .isDirectory
  | .inside parts =>
    match w.file? parts with
    | some file => .ok file
    | none => .error .isDirectory

/-- The document at a path.  The file is read first; `none` if it is in no known
language. -/
def document? (w : Workspace) (path : String) : Except ReadError (Option Document) :=
  let location := Location.ofPath path
  match w.read location with
  | .error fault => .error { fault, location }
  | .ok file =>
    .ok (Document.ofText? location.text (Document.textOfBytes file.content) file.nodes)

end Workspace

end ComponentScan
