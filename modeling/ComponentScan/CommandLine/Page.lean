import ComponentScan.CommandLine.Arguments

/-!
# What the program says about itself

The program has two commands.  Each of them, and the program as a whole, has a page:
what arguments it knows, a usage line and a help text.
-/

namespace ComponentScan.CommandLine

/-- The program as a whole, or one of its commands. -/
inductive Page where
  | program | components | check
deriving DecidableEq

namespace Page

/-- The page of a command. -/
def ofCommand? : String → Option Page
  | "components" => some .components
  | "check" => some .check
  | _ => none

/-- The arguments that are known. -/
def grammar : Page → Grammar
  | .program => ⟨[.help, .verbose], [⟨"command", .rest⟩]⟩
  | .components => ⟨[.help, .json], [⟨"files", .many⟩]⟩
  | .check => ⟨[.help], [⟨"file", .one⟩, ⟨"name", .one⟩]⟩

/-- What a page is called in messages. -/
def title : Page → String
  | .program => "reactdoc"
  | .components => "reactdoc components"
  | .check => "reactdoc check"

/-- The usage line. -/
def usage : Page → String
  | .program => "usage: reactdoc [-h] [--verbose] \x7bcomponents,check\x7d ...\n"
  | .components => "usage: reactdoc components [-h] [--json] files [files ...]\n"
  | .check => "usage: reactdoc check [-h] file name\n"

/-- What the help text says below the usage line. -/
def explanation : Page → List String
  | .program => [
    "",
    "reactdoc: find React components by static inspection",
    "",
    "positional arguments:",
    "  \x7bcomponents,check\x7d  Commands",
    "    components        List component definitions",
    "    check             Classify one named function",
    "",
    "options:",
    "  -h, --help          show this help message and exit",
    "  --verbose, -v       Log debug output to stderr",
    "",
    "Examples:",
    "    reactdoc components src/Button.jsx src/Card.tsx",
    "    reactdoc components --json src/Button.jsx",
    "    reactdoc check src/Button.jsx renderIcon",
    "        "]
  | .components => [
    "",
    "positional arguments:",
    "  files       Source files to inspect",
    "",
    "options:",
    "  -h, --help  show this help message and exit",
    "  --json, -j  Output as JSON"]
  | .check => [
    "",
    "positional arguments:",
    "  file        Source file",
    "  name        Function, variable or property name",
    "",
    "options:",
    "  -h, --help  show this help message and exit"]

/-- The help text. -/
def help (page : Page) : String :=
  page.usage ++ String.join (page.explanation.map (· ++ "\n"))

end Page

/-- A problem in words. -/
def Problem.message : Problem → String
  | .missing names => "the following arguments are required: " ++ ", ".intercalate names
  | .unrecognized arguments => "unrecognized arguments: " ++ " ".intercalate arguments
  | .unknownCommand name =>
    "argument command: invalid choice: " ++ Quoted.quote name
      ++ " (choose from 'components', 'check')"
  | .unexpectedText switch text =>
    "argument " ++ "/".intercalate switch.spellings ++ ": ignored explicit argument "
      ++ Quoted.quote text
  | .ambiguous argument spellings =>
    "ambiguous option: " ++ argument ++ " could match " ++ ", ".intercalate spellings

/-- A problem with the arguments, and the page that complains about it. -/
structure UsageError where
  /-- The page whose arguments are wrong. -/
  page : Page
  /-- What is wrong. -/
  problem : Problem

/-- The message for a usage error. -/
def UsageError.message (e : UsageError) : String :=
  e.page.usage ++ e.page.title ++ ": error: " ++ e.problem.message ++ "\n"

end ComponentScan.CommandLine
