import ComponentScan.CommandLine.Run

/-!
# The program

The files that a request names are read first; all the rest is `CommandLine.run`.  The
rows of the syntax tree of a file stand next to it, in a file whose name has `.nodes`
added.
-/

namespace ComponentScan.CommandLine

/-- The fault with the number and the text that the system gives.  Some calls give the
number with its sign changed, as a word of 32 bits. -/
def faultOfCode (code : Nat) (reason : String) : ReadFault :=
  let code := if code < 0x80000000 then code else 0x100000000 - code
  ([.notFound, .notDirectory, .isDirectory, .nameTooLong].find? (·.code = code)).getD
    (.other code reason)

/-- The fault that an error of the system stands for. -/
def faultOfError : IO.Error → ReadFault
  | .noFileOrDirectory _ code reason | .interrupted _ code reason => faultOfCode code.toNat reason
  | .alreadyExists _ code reason | .invalidArgument _ code reason => faultOfCode code.toNat reason
  | .permissionDenied _ code reason | .noSuchThing _ code reason => faultOfCode code.toNat reason
  | .resourceExhausted _ code reason => faultOfCode code.toNat reason
  | .inappropriateType _ code reason => faultOfCode code.toNat reason
  | .otherError code reason | .resourceBusy code reason => faultOfCode code.toNat reason
  | .resourceVanished code reason | .hardwareFault code reason => faultOfCode code.toNat reason
  | .unsupportedOperation code reason => faultOfCode code.toNat reason
  | .unsatisfiedConstraints code reason => faultOfCode code.toNat reason
  | .illegalOperation code reason | .protocolError code reason => faultOfCode code.toNat reason
  | .timeExpired code reason => faultOfCode code.toNat reason
  | .unexpectedEof => .other 5 "Input/output error"
  | .userError reason => .other 5 reason

/-- The rows that stand next to the file at `path`; none if there are no such rows. -/
def readRows (path : String) : IO (Array Node) := do
  try
    let text ← IO.FS.readFile (path ++ ".nodes")
    return (Node.ofLines? text).getD #[]
  catch _ => return #[]

/-- The document at a path. -/
def readDocument (path : String) : IO (Except ReadError (Option Document)) := do
  let location := Location.ofPath path
  try
    let content ← IO.FS.readBinFile location.text
    let nodes ← readRows location.text
    return .ok (Document.ofText? location.text (Document.textOfBytes content.data) nodes)
  catch e => return .error { fault := faultOfError e, location }

end ComponentScan.CommandLine

open ComponentScan CommandLine in
/-- Runs the program. -/
def main (arguments : List String) : IO UInt32 := do
  let files := match Request.ofArguments arguments with
    | .ok request => request.files
    | .error _ => []
  let documents ← files.mapM fun path => return (path, ← readDocument path)
  let output := run (fun path => (documents.lookup path).getD (.ok none)) arguments
  IO.print output.stdout
  IO.eprint output.stderr
  return output.exit.toUInt32
