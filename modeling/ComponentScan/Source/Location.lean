/-!
# Locations of files

A path as it is given may hold repeated slashes, a slash at the end and parts `.`, none
of which mean anything.  A `Location` is a path without them.  Parts `..` are kept,
because where they lead to is up to the directories on the way.
-/

namespace ComponentScan

/-- Where a path starts. -/
inductive Anchor where
  /-- In the working directory. -/
  | here
  /-- At the root. -/
  | root
  /-- At the root, written with exactly two slashes, which some systems tell from one. -/
  | doubleRoot
deriving DecidableEq

/-- The written form of the start of a path. -/
def Anchor.text : Anchor → String
  | .here => ""
  | .root => "/"
  | .doubleRoot => "//"

/-- A path without parts that mean nothing. -/
structure Location where
  /-- Where the path starts. -/
  anchor : Anchor
  /-- The names on the way. -/
  parts : List String
deriving DecidableEq

namespace Location

/-- The start of the path that is written as `text`. -/
def anchorOf (text : String) : Anchor :=
  match (text.toList.takeWhile (· = '/')).length with
  | 0 => .here
  | 2 => .doubleRoot
  | _ => .root

/-- The location that a path gives. -/
def ofPath (path : String) : Location where
  anchor := anchorOf path
  parts := (path.splitOn "/").filter fun part => part ≠ "" ∧ part ≠ "."

/-- The written form of a location; the working directory itself is a dot. -/
def text (location : Location) : String :=
  if location.anchor = .here ∧ location.parts = [] then "."
  else location.anchor.text ++ "/".intercalate location.parts

end Location

end ComponentScan
