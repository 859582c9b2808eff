import ComponentScan.Text.Quoted

/-!
# Reading arguments

The arguments of a command are switches, which start with a dash, and operands.  A
grammar (`Grammar`) says which switches and operands a command knows.

* Switches may stand anywhere before a divider `--`; all after the divider are operands.
  A long switch may be cut short as long as it can be told from the others, and short
  ones may be written together (`-vh`, also as `-v=h`).  No switch takes a text of its
  own, so what follows a switch and is no other switch is a problem (`--json=x`, `-jx`).
* Operands are filled in order.  An operand that takes many arguments takes all up to
  the next switch; arguments that are left over, and switches that the grammar does not
  know, are kept as extras.
* The first thing that is wrong, from left to right, is the problem that is reported,
  but a switch that could mean several comes before all others, and operands that are
  missing come last.  A request for help ends the reading at once.
* A negative number is an operand, although it starts with a dash.  Its digits may be
  those of any script: each takes ten code points in a row, from its zero on, and
  `Digit.zeros` lists the zeros of Unicode 14.
-/

namespace ComponentScan

namespace Digit

/-- The code points of the digits zero. -/
def zeros : List Nat := [
  0x30, 0x660, 0x6F0, 0x7C0, 0x966, 0x9E6, 0xA66, 0xAE6, 0xB66, 0xBE6, 0xC66, 0xCE6, 0xD66, 0xDE6,
  0xE50, 0xED0, 0xF20, 0x1040, 0x1090, 0x17E0, 0x1810, 0x1946, 0x19D0, 0x1A80, 0x1A90, 0x1B50,
  0x1BB0, 0x1C40, 0x1C50, 0xA620, 0xA8D0, 0xA900, 0xA9D0, 0xA9F0, 0xAA50, 0xABF0, 0xFF10, 0x104A0,
  0x10D30, 0x11066, 0x110F0, 0x11136, 0x111D0, 0x112F0, 0x11450, 0x114D0, 0x11650, 0x116C0,
  0x11730, 0x118E0, 0x11950, 0x11C50, 0x11D50, 0x11DA0, 0x16A60, 0x16AC0, 0x16B50, 0x1D7CE,
  0x1D7D8, 0x1D7E2, 0x1D7EC, 0x1D7F6, 0x1E140, 0x1E2F0, 0x1E950, 0x1FBF0]

/-- Whether `c` is a decimal digit of any script. -/
def isDigit (c : Char) : Bool :=
  zeros.any fun first => first ≤ c.toNat && c.toNat < first + 10

end Digit

namespace CommandLine

/-- The switches there are. -/
inductive Switch where
  | help | verbose | json
deriving DecidableEq

/-- The ways to write a switch. -/
def Switch.spellings : Switch → List String
  | .help => ["-h", "--help"]
  | .verbose => ["--verbose", "-v"]
  | .json => ["--json", "-j"]

/-- How many arguments an operand takes. -/
inductive Arity where
  /-- Exactly one. -/
  | one
  /-- One or more, up to the next switch. -/
  | many
  /-- All that are left, switches included, or none at all. -/
  | rest
deriving DecidableEq

/-- Something that is given by its place among the arguments. -/
structure Operand where
  /-- What the operand is called. -/
  name : String
  /-- How many arguments it takes. -/
  arity : Arity

/-- The arguments that a command knows. -/
structure Grammar where
  /-- Its switches. -/
  switches : List Switch
  /-- Its operands, in order. -/
  operands : List Operand

/-- What can be wrong with arguments. -/
inductive Problem where
  /-- These operands are missing. -/
  | missing (names : List String)
  /-- Nothing is known about these arguments. -/
  | unrecognized (arguments : List String)
  /-- There is no such command. -/
  | unknownCommand (name : String)
  /-- A switch is given a text. -/
  | unexpectedText (switch : Switch) (text : String)
  /-- An argument could be short for several switches. -/
  | ambiguous (argument : String) (spellings : List String)

/-- Why reading arguments ends early. -/
inductive Stop where
  /-- Help is asked for. -/
  | help
  /-- Something is wrong. -/
  | problem (problem : Problem)

/-! ## Telling switches from operands -/

/-- What follows a switch in the same argument. -/
inductive Tail where
  /-- Nothing. -/
  | nothing
  /-- A text behind an equals sign, which no switch takes. -/
  | assigned (text : String)
  /-- More letters behind the letter of a short switch. -/
  | letters (letters : List Char)
deriving DecidableEq

/-- What an argument is. -/
inductive Role where
  | operand
  /-- The mark behind which all arguments are operands. -/
  | divider
  /-- A switch, and what follows it. -/
  | switch (switch : Switch) (tail : Tail)
  /-- It looks like a switch, but is none that the grammar knows. -/
  | unknownSwitch
deriving DecidableEq

/-- An argument with its role. -/
structure Token where
  /-- The argument as it is written. -/
  text : String
  /-- What it is. -/
  role : Role

/-- Whether an argument is a switch, known or not. -/
def Token.isSwitch (token : Token) : Bool :=
  match token.role with
  | .switch .. | .unknownSwitch => true
  | .operand | .divider => false

/-- Whether an argument reads as a negative number, which is no switch; a line end may
follow it. -/
def isNegativeNumber (argument : String) : Bool :=
  let line := argument.toList
  match if line.getLast? = some '\n' then line.dropLast else line with
  | '-' :: number =>
    let fraction := number.dropWhile Digit.isDigit
    match fraction with
    | [] => !number.isEmpty
    | '.' :: decimals => !decimals.isEmpty && decimals.all Digit.isDigit
    | _ => false
  | _ => false

/-- Splits an argument at its first equals sign, if it has one. -/
def splitAtEquals (argument : String) : String × Option String :=
  match argument.toList.span (· ≠ '=') with
  | (name, _ :: text) => (String.ofList name, some (String.ofList text))
  | (_, []) => (argument, none)

/-- What follows a switch with this spelling and perhaps an equals sign and a text.
Behind a short switch the sign is not heeded: the text, if it is not empty, is more
letters. -/
def Tail.behind (spelling : String) : (text? : Option String) → Tail
  | none => .nothing
  | some text =>
    if "--".isPrefixOf spelling || text.isEmpty then .assigned text else .letters text.toList

namespace Grammar

/-- The switch with exactly this spelling. -/
def switch? (g : Grammar) (spelling : String) : Option Switch :=
  g.switches.find? (·.spellings.contains spelling)

/-- All switches in all their spellings. -/
def spellings (g : Grammar) : List (Switch × String) :=
  g.switches.flatMap fun switch => switch.spellings.map (switch, ·)

/-- What an argument with a dash, which is no switch by itself, could stand for.  A long
one may be the start of a spelling, perhaps with a text; a short one may have more
letters behind its own. -/
def readings (g : Grammar) (argument : String) : List (String × Role) :=
  if "--".isPrefixOf argument then
    let (name, text?) := splitAtEquals argument
    (g.spellings.filter fun (_, spelling) => name.isPrefixOf spelling).map
      fun (switch, spelling) => (spelling, .switch switch (.behind spelling text?))
  else
    (g.spellings.filter fun (_, spelling) => spelling.toList = argument.toList.take 2).map
      fun (switch, spelling) => (spelling, .switch switch (.letters (argument.toList.drop 2)))

/-- What an argument before the divider is. -/
def roleOf (g : Grammar) (argument : String) : Except Problem Role :=
  if !"-".isPrefixOf argument || argument = "-" then .ok .operand
  else
    let (name, text?) := splitAtEquals argument
    match g.switch? name with
    | some switch => .ok (.switch switch (.behind name text?))
    | none =>
      match g.readings argument with
      | [(_, role)] => .ok role
      | [] =>
        if isNegativeNumber argument || argument.toList.contains ' ' then .ok .operand
        else .ok .unknownSwitch
      | several => .error (.ambiguous argument (several.map (·.1)))

/-- The arguments with their roles. -/
def tokens (g : Grammar) : List String → Except Problem (List Token)
  | [] => .ok []
  | argument :: arguments =>
    if argument = "--" then .ok (⟨argument, .divider⟩ :: arguments.map (⟨·, .operand⟩))
    else do
      let role ← g.roleOf argument
      let rest ← g.tokens arguments
      return ⟨argument, role⟩ :: rest

/-! ## Switches -/

/-- The switches that are written together behind one dash: `switch`, then one for each
letter.  A letter that is no switch makes a text of itself and all behind it. -/
def cluster (g : Grammar) (switch : Switch) : List Char → Except Problem (List Switch)
  | [] => .ok [switch]
  | letter :: letters =>
    match g.switch? (String.ofList ['-', letter]) with
    | some next => (switch :: ·) <$> g.cluster next letters
    | none => .error (.unexpectedText switch (String.ofList (letter :: letters)))

/-- The switches that one argument gives. -/
def given (g : Grammar) (switch : Switch) : Tail → Except Problem (List Switch)
  | .nothing => .ok [switch]
  | .assigned text => .error (.unexpectedText switch text)
  | .letters letters => g.cluster switch letters

end Grammar

/-! ## Operands -/

/-- The arguments that an operand takes from the front, and those that are left.
Dividers next to them are taken too; of what is taken, the first `--` does not count.
An operand that takes all arguments keeps them as they are. -/
def Arity.take? (arity : Arity) (tokens : List Token) : Option (List String × List Token) :=
  let isDivider (token : Token) : Bool := token.role = .divider
  match tokens.span isDivider with
  | (_, []) => none
  | (dividers, token :: later) =>
    if token.isSwitch then none
    else
      let counted (taken : List Token) :=
        ((dividers ++ token :: taken).map Token.text).erase "--"
      match arity with
      | .one =>
        let (taken, left) := later.span isDivider
        some (counted taken, left)
      | .many =>
        let (taken, left) := later.span (!·.isSwitch)
        some (counted taken, left)
      | .rest => some (tokens.map Token.text, [])

/-- How far the arguments have been read. -/
structure Progress where
  /-- The switches given so far. -/
  switches : List Switch := []
  /-- The arguments of each operand filled so far. -/
  filled : List (List String) := []
  /-- The operands that are still to be filled. -/
  pending : List Operand
  /-- The arguments that nothing is known about. -/
  extras : List String := []

namespace Progress

/-- Fills as many operands as possible from the front of the arguments. -/
def fillFrom (filled : List (List String)) :
    List Operand → List Token → List (List String) × List Operand × List Token
  | [], tokens => (filled, [], tokens)
  | operand :: pending, tokens =>
    match operand.arity.take? tokens with
    | none => (filled, operand :: pending, tokens)
    | some (taken, left) => fillFrom (filled ++ [taken]) pending left

/-- Fills as many pending operands as possible, and gives the arguments that are left. -/
def fill (p : Progress) (tokens : List Token) : Progress × List Token :=
  let (filled, pending, left) := fillFrom p.filled p.pending tokens
  ({ p with filled, pending }, left)

/-- Arguments that nothing is known about. -/
def leave (p : Progress) (tokens : List Token) : Progress :=
  { p with extras := p.extras ++ tokens.map Token.text }

/-- The operands that had to be filled and were not. -/
def missing (p : Progress) : List String :=
  (p.pending.filter (·.arity ≠ .rest)).map Operand.name

end Progress

namespace Grammar

/-- Reads arguments from left to right. -/
def readFrom (g : Grammar) (tokens : List Token) (p : Progress) : Except Stop Progress :=
  match tokens with
  | [] => .ok p
  | token :: later =>
    match token.role with
    | .switch switch tail =>
      match g.given switch tail with
      | .error problem => .error (.problem problem)
      | .ok switches =>
        if switches.contains .help then .error .help
        else g.readFrom later { p with switches := p.switches ++ switches }
    | .unknownSwitch => g.readFrom later (p.leave [token])
    | .operand | .divider =>
      let (filled, left) := p.fill (token :: later)
      if !later.any Token.isSwitch then .ok (filled.leave left)
      else if left.length ≤ later.length then g.readFrom left filled
      else
        g.readFrom (later.dropWhile (!·.isSwitch))
          (p.leave (token :: later.takeWhile (!·.isSwitch)))
termination_by tokens.length
decreasing_by
  · simp
  · simp
  · simp only [List.length_cons]; omega
  · have := (List.dropWhile_suffix (fun token : Token => !token.isSwitch) (l := later)).length_le
    simp only [List.length_cons]; omega

/-- Reads the arguments of a command. -/
def read (g : Grammar) (arguments : List String) : Except Stop Progress :=
  match g.tokens arguments with
  | .error problem => .error (.problem problem)
  | .ok tokens =>
    match g.readFrom tokens { pending := g.operands } with
    | .error stop => .error stop
    | .ok p => if p.missing.isEmpty then .ok p else .error (.problem (.missing p.missing))

end Grammar

end CommandLine

end ComponentScan
