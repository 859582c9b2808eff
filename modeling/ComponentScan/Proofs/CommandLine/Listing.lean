import Mathlib.Data.List.Basic
import Mathlib.Data.List.Induction
import ComponentScan.CommandLine.Run

/-! # Files that cannot be read

Listing the components of files is one loop over the files, which may be named in any
order and more than once, and some of which cannot be read.  `Accounts` is what holds after
every round of the loop:

* the listing has the readable files, each once and where it was first named: a path that
  comes again is set again in its old place, and as a file has the same components whenever
  it is read, this changes nothing;
* on standard error there is one complaint for each time that an unreadable file was named;
* the exit status is that of a failure as soon as there was such a file.

Each round keeps this (`Accounts.addFile`), so it holds of the whole loop (`accounts_foldl`).
-/
namespace ComponentScan.CommandLine

/-! ## What should come out -/

/-- Whether the file at a path can be read. -/
def isReadable (read : Reader) (path : String) : Bool :=
  (read path).isOk

/-- The components of the file at a path.  One that cannot be read has none, and neither has
one in no known language. -/
def componentsAt (read : Reader) (path : String) : List Component :=
  match read path with
  | .ok (some document) => document.tree.components
  | _ => []

/-- The readable ones of some files with their components, each file once, in the order in
which the files are first named. -/
def readableListing (read : Reader) (files : List String) : Listing :=
  (files.filter (isReadable read)).eraseDups.map fun path => (path, componentsAt read path)

/-- The complaint about a file, if it cannot be read. -/
def complaint? (read : Reader) (path : String) : Option String :=
  match read path with
  | .error e => some ("Error reading " ++ path ++ ": " ++ e.message ++ "\n")
  | .ok _ => none

/-- What a component is called in print. -/
def shownName : Option String → String
  | some name => if name = "" then "<anonymous>" else name
  | none => "<anonymous>"

/-- A listing in print.  As text there is a line for each component, with the file, the line
where it starts, the form and the name; as JSON there is a member for each file. -/
def printed (json : Bool) (listing : Listing) : String :=
  if json then
    Json.object 0 (listing.map fun (path, components) =>
      (path, Json.list 1 (components.map fun component => Json.object 2 [
        ("kind", Json.string component.form.label),
        ("name", Json.stringOrNull component.name?),
        ("line", toString (component.span.start.line + 1)),
        ("char", toString component.span.start.column)]))) ++ "\n"
  else
    String.join (listing.flatMap fun (path, components) => components.map fun component =>
      path ++ ":" ++ toString (component.span.start.line + 1) ++ " " ++ component.form.label ++ " "
        ++ shownName component.name? ++ "\n")

section Reading
variable {read : Reader} {path : String}

theorem isReadable_iff : isReadable read path = true ↔ ∃ document?, read path = .ok document? := by
  cases h : read path <;> simp [isReadable, h, Except.isOk, Except.toBool]

theorem isReadable_eq_false_iff : isReadable read path = false ↔ ∃ e, read path = .error e := by
  cases h : read path <;> simp [isReadable, h, Except.isOk, Except.toBool]

theorem componentsAt_of_ok {document? : Option Document} (h : read path = .ok document?) :
    componentsAt read path = documentComponents document? := by
  cases document? <;> simp [componentsAt, h, documentComponents]

end Reading

/-! ## The listing -/

section Put
variable {components : String → List Component} {paths : List String} {path : String}

/-- Setting a path that is listed already, with the components that it has, changes
nothing. -/
theorem put_of_mem (h : path ∈ paths) :
    Listing.put (paths.map fun p => (p, components p)) path (components path) =
      paths.map fun p => (p, components p) := by
  have hany : (paths.map fun p => (p, components p)).any (·.1 = path) = true := by
    simpa using h
  unfold Listing.put
  rw [if_pos hany, List.map_map]
  refine List.map_congr_left fun p _ => ?_
  -- the only entry that is set is that of `path`, to what it has been
  by_cases hp : p = path
  · simp [hp]
  · simp [hp]

/-- A path that is not listed yet comes last. -/
theorem put_of_not_mem (h : path ∉ paths) :
    Listing.put (paths.map fun p => (p, components p)) path (components path) =
      (paths ++ [path]).map fun p => (p, components p) := by
  have hany : (paths.map fun p => (p, components p)).any (·.1 = path) ≠ true := by
    simpa using h
  unfold Listing.put
  rw [if_neg hany, List.map_append]
  rfl

/-- The first occurrences in a list that has got one more member at its end. -/
theorem eraseDups_concat (paths : List String) (path : String) :
    (paths ++ [path]).eraseDups =
      if path ∈ paths then paths.eraseDups else paths.eraseDups ++ [path] := by
  rw [List.eraseDups_append]
  by_cases h : path ∈ paths <;> simp [h, List.removeAll, List.eraseDups_cons]

end Put

section Rounds
variable {read : Reader} {files : List String} {path : String}

theorem readableListing_concat_of_unreadable (h : isReadable read path = false) :
    readableListing read (files ++ [path]) = readableListing read files := by
  simp [readableListing, h]

/-- A readable file is set in the listing of the files before it. -/
theorem readableListing_concat_of_readable (h : isReadable read path = true) :
    readableListing read (files ++ [path]) =
      (readableListing read files).put path (componentsAt read path) := by
  have hlast : [path].filter (isReadable read) = [path] := by simp [h]
  rw [readableListing, readableListing, List.filter_append, hlast, eraseDups_concat]
  split
  · next hmem => exact (put_of_mem (List.mem_eraseDups.mpr hmem)).symm
  · next hmem => exact (put_of_not_mem fun hmem' => hmem (List.mem_eraseDups.mp hmem')).symm

/-- Files that cannot be read have no part in the listing. -/
theorem readableListing_filter (read : Reader) (files : List String) :
    readableListing read (files.filter (isReadable read)) = readableListing read files := by
  simp [readableListing, List.filter_filter]

/-! ## The loop -/

/-- What holds after the files of a list, when no log is asked for. -/
structure Accounts (read : Reader) (files : List String) (tally : Tally) : Prop where
  /-- The readable ones are listed. -/
  listing : tally.listing = readableListing read files
  /-- The others are complained about, each time that they are named. -/
  stderr : tally.stderr = String.join (files.filterMap (complaint? read))
  /-- They make the run fail. -/
  exit : tally.exit = if files.all (isReadable read) then 0 else 1

theorem accounts_nil (read : Reader) : Accounts read [] {} :=
  ⟨rfl, rfl, rfl⟩

/-- **Every round of the loop keeps this.** -/
theorem Accounts.addFile {tally : Tally} (h : Accounts read files tally) (path : String) :
    Accounts read (files ++ [path]) (tally.addFile read false path) := by
  cases hread : read path with
  | error e =>
    have hunreadable : isReadable read path = false := isReadable_eq_false_iff.mpr ⟨e, hread⟩
    have hcomplaint : complaint? read path = some (readComplaint path e) := by
      unfold complaint? readComplaint
      rw [hread]
    rw [Tally.addFile, hread]
    constructor
    · rw [readableListing_concat_of_unreadable hunreadable]
      exact h.listing
    · simp [h.stderr, hcomplaint, List.filterMap_append]
    · simp [hunreadable]
  | ok document? =>
    have hreadable : isReadable read path = true := isReadable_iff.mpr ⟨document?, hread⟩
    have hcomplaint : complaint? read path = none := by simp only [complaint?, hread]
    have hlog : readingLog false path document? = "" := by cases document? <;> rfl
    rw [Tally.addFile, hread]
    constructor
    · rw [readableListing_concat_of_readable hreadable, componentsAt_of_ok hread, ← h.listing]
    · simp [h.stderr, hcomplaint, hlog, List.filterMap_append]
    · simp [h.exit, hreadable]

/-- **So it holds after any number of files.** -/
theorem accounts_foldl (read : Reader) (files : List String) :
    Accounts read files (files.foldl (Tally.addFile read false) {}) := by
  -- from the back, as the last round is that of the last file
  induction files using List.reverseRecOn with
  | nil => exact accounts_nil read
  | append_singleton files path ih =>
    rw [List.foldl_append]
    exact ih.addFile path

end Rounds

/-! ## The output -/

theorem shownName_eq (name? : Option String) :
    (if name?.getD "" = "" then "<anonymous>" else name?.getD "") = shownName name? := by
  cases name? <;> rfl

theorem printed_eq (json : Bool) (listing : Listing) :
    (if json then listing.toJson else listing.toText) = printed json listing := by
  cases json with
  | true => rfl
  | false =>
    refine congrArg String.join (List.flatMap_congr fun entry _ => ?_)
    refine List.map_congr_left fun component _ => ?_
    rw [← shownName_eq]
    rfl

/-- **Files that cannot be read do not disturb the others.**  The run fails exactly if one
of the files cannot be read.  There is one complaint for each time that such a file is
named, in the order of the arguments.  And what is printed is what the other files alone
would give: each of them once, where it is first named, with its components in order. -/
theorem unreadable_files_do_not_disturb (read : Reader) (json : Bool) (files : List String) :
    let output := listComponents read false json files
    (output.exit = 1 ↔ ∃ path ∈ files, ∃ e, read path = .error e) ∧
      (output.exit = 0 ↔ ∀ path ∈ files, ∃ document?, read path = .ok document?) ∧
      output.stderr = String.join (files.filterMap (complaint? read)) ∧
      output.stdout =
        (listComponents read false json (files.filter (isReadable read))).stdout ∧
      output.stdout = printed json (readableListing read files) := by
  have haccounts := accounts_foldl read files
  have hstdout (files : List String) : (listComponents read false json files).stdout =
      printed json (readableListing read files) := by
    rw [← printed_eq, ← (accounts_foldl read files).listing]
    rfl
  refine ⟨?_, ?_, haccounts.stderr, ?_, hstdout files⟩
  · simp [listComponents, haccounts.exit, isReadable_eq_false_iff]
  · simp [listComponents, haccounts.exit, isReadable_iff]
  · rw [hstdout, hstdout, readableListing_filter]

end ComponentScan.CommandLine
