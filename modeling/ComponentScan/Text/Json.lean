import ComponentScan.Text.Quoted

/-!
# JSON layout

JSON in ASCII, laid out over several lines: every item of a list and every member of an
object has a line of its own, indented by two blanks for each level.  Empty lists and
objects stay on one line.
-/

namespace ComponentScan.Json

/-- A unit of UTF-16, written by its number. -/
def unit (n : Nat) : List Char :=
  '\\' :: 'u' :: Hexadecimal.digits 4 n

/-- One character of a string.  Beyond the first 65536 code points it takes two units. -/
def escape (c : Char) : List Char :=
  if c = '"' ∨ c = '\\' then ['\\', c]
  else if c = '\n' then ['\\', 'n']
  else if c = '\r' then ['\\', 'r']
  else if c = '\t' then ['\\', 't']
  else if c.toNat = 0x08 then ['\\', 'b']
  else if c.toNat = 0x0C then ['\\', 'f']
  else if 0x20 ≤ c.toNat ∧ c.toNat < 0x7F then [c]
  else if c.toNat < 0x10000 then unit c.toNat
  else unit (0xD800 + (c.toNat - 0x10000) / 0x400) ++ unit (0xDC00 + (c.toNat - 0x10000) % 0x400)

/-- A string. -/
def string (text : String) : String :=
  String.ofList ('"' :: text.toList.flatMap escape ++ ['"'])

/-- A string, or nothing. -/
def stringOrNull : Option String → String
  | some text => string text
  | none => "null"

/-- The start of a line at a level. -/
def newLine (level : Nat) : String :=
  String.ofList ('\n' :: List.replicate (2 * level) ' ')

/-- Items between brackets; the brackets stand at `level`. -/
def bracketed (opening closing : String) (level : Nat) (items : List String) : String :=
  if items.isEmpty then opening ++ closing
  else
    opening ++ ",".intercalate (items.map (newLine (level + 1) ++ ·)) ++ newLine level
      ++ closing

/-- A list of values that are written already. -/
def list (level : Nat) (items : List String) : String :=
  bracketed "[" "]" level items

/-- An object with members whose values are written already. -/
def object (level : Nat) (members : List (String × String)) : String :=
  bracketed "\x7b" "\x7d" level (members.map fun (name, value) => string name ++ ": " ++ value)

end ComponentScan.Json
