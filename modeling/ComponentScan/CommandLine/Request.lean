import ComponentScan.CommandLine.Page

/-!
# Requests

What the arguments of the program ask for.  The arguments before the command are the
program's own, all after it are the command's.  What neither knows is reported last, the
program's own first.
-/

namespace ComponentScan.CommandLine

/-- What the program is asked to do. -/
inductive Request where
  /-- Show a help text. -/
  | help (page : Page)
  /-- Nothing in particular. -/
  | idle
  /-- List the components of some files. -/
  | components (verbose json : Bool) (files : List String)
  /-- Judge the function with a name in a file; the name may come to nothing. -/
  | check (verbose : Bool) (file : String) (name? : Option String)

namespace Request

/-- The files that a request names. -/
def files : Request → List String
  | .components _ _ files => files
  | .check _ file _ => [file]
  | .help _ | .idle => []

/-- The request for a command whose operands have been filled. -/
def ofFilled (page : Page) (verbose : Bool) (p : Progress) : Request :=
  match page, p.filled with
  | .components, [files] => .components verbose (p.switches.contains .json) files
  | .check, [[file], name] => .check verbose file name.head?
  | _, _ => .idle

/-- What the arguments `arguments` of a command ask for; `own` is what was read before
the command. -/
def ofCommand (own : Progress) (page : Page) (arguments : List String) :
    Except UsageError Request :=
  match page.grammar.read arguments with
  | .error .help => .ok (.help page)
  | .error (.problem problem) => .error ⟨page, problem⟩
  | .ok p =>
    let extras := own.extras ++ p.extras
    if extras.isEmpty then .ok (ofFilled page (own.switches.contains .verbose) p)
    else .error ⟨.program, .unrecognized extras⟩

/-- What the arguments of the program ask for. -/
def ofArguments (arguments : List String) : Except UsageError Request :=
  match Page.program.grammar.read arguments with
  | .error .help => .ok (.help .program)
  | .error (.problem problem) => .error ⟨.program, problem⟩
  | .ok own =>
    match own.filled with
    | [command :: arguments] =>
      match Page.ofCommand? command with
      | some page => ofCommand own page arguments
      | none => .error ⟨.program, .unknownCommand command⟩
    | _ =>
      if own.extras.isEmpty then .ok .idle else .error ⟨.program, .unrecognized own.extras⟩

end Request

end ComponentScan.CommandLine
