import ComponentScan.CommandLine.Request
import ComponentScan.Component.Name
import ComponentScan.Source.Workspace
import ComponentScan.Text.Json

/-!
# Running a request

A run gives two texts and an exit status.  How files are read is left open: a `Reader`
gives the document at a path, `none` if it is in no known language, or the reason why it
cannot be read.

Listing is one loop over the files in order, which keeps a listing, the text on standard
error and the exit status.  A file that cannot be read is complained about and makes the
run fail, but does not disturb the others.  The components of the others are listed by
path, each path once, where it was first named.

The log, if it is asked for, is written on standard error.  One of its entries is left out
here: where a malformed tree makes a function count as no component, the log says so and
adds a trace of the calls that led there.
-/

namespace ComponentScan.CommandLine

/-- What a run gives. -/
structure Output where
  /-- The exit status. -/
  exit : Nat
  /-- The text on standard output. -/
  stdout : String := ""
  /-- The text on standard error. -/
  stderr : String := ""

/-- How documents are read. -/
abbrev Reader := String → Except ReadError (Option Document)

/-- A line of the log, which is written on standard error if asked for. -/
def logLine (verbose : Bool) (source message : String) : String :=
  if verbose then "DEBUG reactdoc." ++ source ++ ": " ++ message ++ "\n" else ""

/-- The complaint about a file that cannot be read. -/
def readComplaint (path : String) (e : ReadError) : String :=
  "Error reading " ++ path ++ ": " ++ e.message ++ "\n"

/-! ## Listing components -/

/-- The components of files, in the order in which the files were first named. -/
abbrev Listing := List (String × List Component)

namespace Listing

/-- Sets the components of a file, in its place if it has one already. -/
def put (listing : Listing) (path : String) (components : List Component) : Listing :=
  if listing.any (·.1 = path) then
    listing.map fun entry => if entry.1 = path then (path, components) else entry
  else listing ++ [(path, components)]

/-- One component of a file, as a line of text. -/
def line (path : String) (component : Component) : String :=
  let name := component.name?.getD ""
  path ++ ":" ++ toString (component.span.start.line + 1) ++ " " ++ component.form.label ++ " "
    ++ (if name = "" then "<anonymous>" else name) ++ "\n"

/-- A listing as text, with a line for each component. -/
def toText (listing : Listing) : String :=
  String.join (listing.flatMap fun (path, components) => components.map (line path))

/-- One component as JSON. -/
def componentJson (component : Component) : String :=
  Json.object 2 [
    ("kind", Json.string component.form.label),
    ("name", Json.stringOrNull component.name?),
    ("line", toString (component.span.start.line + 1)),
    ("char", toString component.span.start.column)]

/-- A listing as JSON, with a member for each file. -/
def toJson (listing : Listing) : String :=
  Json.object 0 (listing.map fun (path, components) =>
    (path, Json.list 1 (components.map componentJson))) ++ "\n"

end Listing

/-- The components of a document; one in no known language has none. -/
def documentComponents : Option Document → List Component
  | some document => document.tree.components
  | none => []

/-- What the log says about a file that has been read. -/
def readingLog (verbose : Bool) (path : String) : Option Document → String
  | none => logLine verbose "finder" ("Skipping unsupported file " ++ path)
  | some document =>
    logLine verbose "finder" ("Found " ++ toString document.tree.components.length
      ++ " component(s) in " ++ document.language.label ++ " source")

/-- What listing has gathered from some of the files. -/
structure Tally where
  /-- The components of those that could be read. -/
  listing : Listing := []
  /-- What has been written on standard error. -/
  stderr : String := ""
  /-- The exit status. -/
  exit : Nat := 0

/-- Goes on with one more file. -/
def Tally.addFile (read : Reader) (verbose : Bool) (tally : Tally) (path : String) :
    Tally :=
  match read path with
  | .error e =>
    { tally with stderr := tally.stderr ++ readComplaint path e, exit := 1 }
  | .ok document? =>
    { tally with
      listing := tally.listing.put path (documentComponents document?)
      stderr := tally.stderr ++ readingLog verbose path document? }

/-- Lists the components of files. -/
def listComponents (read : Reader) (verbose json : Bool) (files : List String) : Output :=
  let tally := files.foldl (Tally.addFile read verbose) {}
  { exit := tally.exit
    stdout := if json then tally.listing.toJson else tally.listing.toText
    stderr := tally.stderr }

/-! ## Judging one function -/

/-- The complaint about a name that nothing has; no name at all is shown as an empty
list. -/
def nameComplaint (name? : Option String) : String :=
  "Not found: " ++ name?.getD "[]" ++ "\n"

/-- Judges the function with a name in a file. -/
def checkNamed (read : Reader) (verbose : Bool) (file : String) (name? : Option String) :
    Output :=
  match read file with
  | .error e => { exit := 1, stderr := readComplaint file e }
  | .ok none => { exit := 1, stderr := "Unsupported file type: " ++ file ++ "\n" }
  | .ok (some document) =>
    let t := document.tree
    match name?.bind fun name => (t.named? name).map (name, ·) with
    | none => { exit := 1, stderr := nameComplaint name? }
    | some (name, n) =>
      let verdict := t.isStateless n
      { exit := 0
        stdout := name ++ ": " ++ (if verdict then "component" else "not a component") ++ "\n"
        stderr := logLine verbose "cli" ("Classified " ++ t.describe n ++ " as "
          ++ (if verdict then "True" else "False")) }

/-! ## Any request -/

/-- Does what is asked for. -/
def Request.run (read : Reader) : Request → Output
  | .help page => { exit := 0, stdout := page.help }
  | .idle => { exit := 1, stdout := Page.program.help }
  | .components verbose json files => listComponents read verbose json files
  | .check verbose file name? => checkNamed read verbose file name?

/-- Runs the program with the given arguments. -/
def run (read : Reader) (arguments : List String) : Output :=
  match Request.ofArguments arguments with
  | .error e => { exit := 2, stderr := e.message }
  | .ok request => request.run read

end ComponentScan.CommandLine
