import AbsoluteImports.Scan
import AbsoluteImports.Summary

/-!
# Conversion of a directory

Makes the relative imports of every Python file below a package directory absolute. A file
that fails is recorded and does not stop the others; a file without changes is never written.
A run can be cancelled: the file in work is finished and no other is started.
-/

namespace AbsoluteImports

/-! ### Setting up -/

/-- What a conversion is asked to do. -/
structure Options where
  files : Option FileAccess
  /-- Number of files in work at once; zero means one. -/
  workers : Int
  /-- Patterns of files to leave out, relative to the directory. -/
  exclude : List Text
  /-- Report changes without writing them. -/
  dryRun : Bool

/-- A conversion that is ready to run. -/
structure Converter where
  files : FileAccess
  workers : Nat
  exclude : List Text
  dryRun : Bool

/-- Why a conversion cannot be set up. -/
inductive SetupError where
  | noFiles
  | negativeWorkers (n : Int)
  | badPattern (e : Glob.Error)
  deriving DecidableEq, Repr

def SetupError.message : SetupError → String
  | noFiles => "file util is required"
  | negativeWorkers n => "workers must not be negative, got " ++ toString n
  | badPattern e => e.message

def Converter.ofOptions (o : Options) : Except SetupError Converter :=
  match o.files with
  | none => .error .noFiles
  | some files =>
    if o.workers < 0 then .error (.negativeWorkers o.workers)
    else
      match Glob.validate o.exclude with
      | .error e => .error (.badPattern e)
      | .ok () => .ok ⟨files, max 1 o.workers.toNat, o.exclude, o.dryRun⟩

/-- When a run is cancelled. -/
inductive Cancellation where
  | never
  | beforehand
  /-- While the n-th file is read, counted from one. -/
  | duringRead (n : Nat)
  deriving DecidableEq, Repr

/-- Whether a cancellation has happened once a number of files were read. -/
def Cancellation.seen : Cancellation → (reads : Nat) → Bool
  | never, _ => false
  | beforehand, _ => true
  | duringRead n, reads => 0 < n && n ≤ reads

namespace Conversion

/-- Why a directory could not be converted. -/
inductive Error where
  | directory (e : Package.DirectoryError)
  | marker (dir : Text) (e : SourceFile.Error)
  | listing (e : Scan.Error)
  | cancelled (dir : Text)
  deriving DecidableEq, Repr

def Error.message : Error → String
  | directory e => e.message
  | marker dir e => "checking " ++ String.ofList dir ++ ": " ++ Package.markerMessage e
  | listing e => "listing python files: " ++ e.message
  | cancelled dir => "converting " ++ String.ofList dir ++ ": " ++ Scan.cancelledMessage

/-! ### One file -/

/-- What converting one file did. -/
structure FileRun where
  result : Result
  /-- Whether the file was handed over for writing. -/
  wrote : Bool
  tree : FileTree
  events : List Event

def fileEvent (level : Level) (path : Text) (fields : List (String × Value)) (message : String) :
    Event :=
  ⟨level, ("file", .text path) :: fields, message.toList⟩

def failedEvent (path : Text) (e : SourceFile.Error) : Event :=
  ⟨.error, [("error", .text e.message.toList), ("file", .text path)],
    "error processing file".toList⟩

def changeEvent (path : Text) (c : Change) : Event :=
  fileEvent .debug path [("line", .number (c.index + 1)), ("original", .text (Text.trim c.before)),
    ("modified", .text (Text.trim c.after))] "modified line"

def readEvent (path : Text) (d : Document) : Event :=
  ⟨.trace, [("path", .text path), ("encoding", .text d.encoding.name.toList)], "read file".toList⟩

def convertedDocument (package : Text) (d : Document) : Document :=
  { d with lines := absoluteLines package d.lines }

def convertFile (c : Converter) (package : Text) (t : FileTree) (path : Text) : FileRun :=
  match c.files.read t path with
  | .error e => ⟨⟨path, .failed, [], some e⟩, false, t, [failedEvent path e]⟩
  | .ok d =>
    let changes := Change.list package d.lines
    let events := readEvent path d :: changes.map (changeEvent path)
    let counted := [("changes", Value.number changes.length)]
    if changes.isEmpty then
      ⟨⟨path, .unchanged, [], none⟩, false, t,
        events ++ [fileEvent .info path [] "no changes needed"]⟩
    else if c.dryRun then
      ⟨⟨path, .updated, changes, none⟩, false, t,
        events ++ [fileEvent .info path counted "would update"]⟩
    else
      match c.files.write t path (convertedDocument package d) with
      | (.error e, left) =>
        ⟨⟨path, .failed, [], some e⟩, true, left, events ++ [failedEvent path e]⟩
      | (.ok (), left) =>
        ⟨⟨path, .updated, changes, none⟩, true, left,
          events ++ [fileEvent .info path counted "updated"]⟩

/-! ### All files -/

/-- Converts files one after the other, until the run is cancelled. -/
def convertFiles (c : Converter) (package : Text) (cancel : Cancellation) :
    (reads : Nat) → FileTree → List Text → List FileRun × FileTree
  | _, t, [] => ([], t)
  | reads, t, path :: rest =>
    if cancel.seen reads then ([], t)
    else
      let run := convertFile c package t path
      let (runs, left) := convertFiles c package cancel (reads + 1) run.tree rest
      (run :: runs, left)

/-- What converting one directory did. -/
structure Run where
  summary : Option Summary
  error : Option Error
  tree : FileTree
  events : List Event
  /-- The files that were read, in order. -/
  reads : List Text
  /-- The files that were handed over for writing, in order. -/
  writes : List Text

def Run.ended (t : FileTree) (summary : Option Summary) (error : Option Error)
    (events : List Event) : Run :=
  ⟨summary, error, t, events, [], []⟩

/-- Makes the relative imports below a directory absolute. -/
def run (c : Converter) (cancel : Cancellation) (t : FileTree) (cwd : Location) (dir : Text) :
    Run :=
  let inside := Event.within "directory" (.text dir)
  match Package.validateDirectory t cwd dir with
  | .error e =>
    let event : Event :=
      ⟨.error, [("error", .text e.message.toList)], "directory does not exist".toList⟩
    .ended t none (some (.directory e)) [inside event]
  | .ok () =>
    match Package.isRoot c.files t dir with
    | .error e => .ended t none (some (.marker dir e)) []
    | .ok false =>
      let message :=
        "skipping ".toList ++ dir ++ " (no ".toList ++ Package.marker ++ " found)".toList
      .ended t (some ⟨dir, [], true, c.dryRun, []⟩) none [inside ⟨.warn, [], message⟩]
    | .ok true =>
      let package := Package.name cwd dir
      match Scan.pythonFiles t cwd dir c.exclude (cancel.seen 0) with
      | (.error e, scanned) => .ended t none (some (.listing e)) scanned
      | (.ok files, scanned) =>
        let begun : Event := ⟨.debug, [("package", .text package), ("files", .number files.length),
          ("workers", .number c.workers)], "converting relative imports".toList⟩
        let (runs, left) := convertFiles c package cancel 0 t files
        let summary : Summary := ⟨dir, package, false, c.dryRun, runs.map (·.result)⟩
        let cancelled := cancel.seen runs.length
        let stopped : Event := ⟨.warn, [("processed", .number runs.length),
          ("total", .number files.length)], "conversion cancelled".toList⟩
        { summary := some summary
          error := if cancelled then some (.cancelled dir) else none
          tree := left
          events := scanned ++ inside begun :: runs.flatMap (fun r => r.events.map inside) ++
            (if cancelled then [inside stopped] else [])
          reads := runs.map (·.result.path)
          writes := (runs.filter (·.wrote)).map (·.result.path) }

end Conversion

end AbsoluteImports
