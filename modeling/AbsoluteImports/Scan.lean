import AbsoluteImports.Event
import AbsoluteImports.Glob.Match
import AbsoluteImports.Package

/-!
# Scanning a directory

Finds every Python file below a directory: the files of a directory first, by name, then
those of its sub-directories, by name. Links are followed. A file whose path relative to the
directory matches an exclude pattern is left out.
-/

namespace AbsoluteImports.Scan

/-! ### Errors -/

/-- What stopped the walk through a directory. -/
inductive WalkError where
  | failed (f : FileTree.Failure)
  /-- The directory has an empty name, which stands for no directory. -/
  | emptyRoot
  deriving DecidableEq, Repr

def WalkError.message : WalkError → String
  | failed f => f.message
  | emptyRoot => "stat .: os: DirFS with empty root"

inductive Error where
  | badPattern (e : Glob.Error)
  | walking (root : Text) (e : WalkError)
  | matching (root pattern : Text)
  | cancelled (root : Text)
  deriving DecidableEq, Repr

def cancelledMessage : String := "context canceled"

def Error.message : Error → String
  | badPattern e => e.message
  | walking root e => "scanning " ++ String.ofList root ++ ": " ++ e.message
  | matching root p =>
    "scanning " ++ String.ofList root ++ ": matching " ++ Text.quoted p ++
      ": syntax error in pattern"
  | cancelled root => "scanning " ++ String.ofList root ++ ": " ++ cancelledMessage

/-! ### Walking -/

/-- The files that a walk found, and what stopped it early. -/
structure Found where
  files : List Text
  stopped : Option FileTree.Failure

/-- What two walks, one after the other, find; the second is not made when the first was
stopped. -/
def Found.andThen (a b : Found) : Found :=
  match a.stopped with
  | some _ => a
  | none => ⟨a.files ++ b.files, b.stopped⟩

def Found.nothing : Found := ⟨[], none⟩

/-- What is found in each of a list of places, in order. -/
def Found.inEach (f : α → Found) : List α → Found
  | [] => nothing
  | a :: rest => (f a).andThen (inEach f rest)

def isPythonName (name : Text) : Bool := Text.endsWith ".py".toList name

def fullPath (root rel : Text) : Text :=
  if root.getLast? = some '/' then root ++ rel else root ++ '/' :: rel

/-- The path, relative to the root, of an entry of a directory. -/
def below (dir name : Text) : Text := if dir = Path.here then name else dir ++ '/' :: name

/-- Whether an entry is a directory, or a link to one. A link that leads nowhere is not. -/
def isDirectory (t : FileTree) (cwd : Location) (root rel : Text) (e : Entry) :
    Except FileTree.Failure Bool :=
  match e with
  | .directory => .ok true
  | .file .. => .ok false
  | .link _ =>
    match t.stat cwd (fullPath root rel) with
    | .ok e' => .ok e'.isDirectory
    | .error f => if f.cause = .noEntry then .ok false else .error ⟨.stat rel, f.cause⟩

/-- The file at one entry with the name of a Python file. -/
def fileAt (t : FileTree) (cwd : Location) (root rel : Text) (e : Entry) : Found :=
  match isDirectory t cwd root rel e with
  | .ok true => .nothing
  | .ok false => ⟨[rel], none⟩
  | .error f => ⟨[], some f⟩

/-- The Python files below a directory, itself given relative to the root, to a depth. -/
def walk (t : FileTree) (cwd : Location) (root : Text) : Nat → Text → Found
  | 0, _ => .nothing
  | depth + 1, dir =>
    match t.locate cwd (fullPath root dir) with
    | .error c => if c = .noEntry then .nothing else ⟨[], some ⟨.open dir, c⟩⟩
    | .ok l =>
      let entries := t.children l
      let own := Found.inEach (fun (name, e) => fileAt t cwd root (below dir name) e)
        (entries.filter fun x => isPythonName x.1)
      own.andThen <| Found.inEach (fun (name, e) =>
        match isDirectory t cwd root (below dir name) e with
        | .ok true => walk t cwd root depth (below dir name)
        | .ok false => .nothing
        | .error f => ⟨[], some f⟩) entries

/-- A depth that no walk passes: one path goes through a limited number of links, and
between two of them no directory comes twice. -/
def depthLimit (t : FileTree) : Nat := (FileTree.linkLimit + 1) * (t.entries.length + 1)

/-- All Python files below a root directory, relative to it. A root that is not there has
none. -/
def walkRoot (t : FileTree) (cwd : Location) (root : Text) : List Text × Option WalkError :=
  if root.isEmpty then ([], some .emptyRoot)
  else
    match t.stat cwd (fullPath root Path.here) with
    | .error f =>
      if f.cause = .noEntry then ([], none) else ([], some (.failed ⟨.stat Path.here, f.cause⟩))
    | .ok e =>
      if e.isDirectory then
        let found := walk t cwd root (depthLimit t) Path.here
        (found.files, found.stopped.map .failed)
      else ([], none)

/-! ### Excluding -/

/-- The verdict on one file. -/
inductive Choice where
  | kept
  | excluded (pattern : Text)
  | malformed (pattern : Text)
  deriving DecidableEq, Repr

/-- The first pattern that matches a path excludes it. -/
def choose (path : Text) : List Text → Choice
  | [] => .kept
  | p :: ps =>
    match Glob.check p path with
    | .matched => .excluded p
    | .unmatched => choose path ps
    | .malformed => .malformed p

def ignoredEvent (path pattern : Text) : Event :=
  ⟨.debug, [("file", .text path), ("pattern", .text pattern)], "file ignored by pattern".toList⟩

def scannedEvent (root : Text) (count : Nat) : Event :=
  ⟨.debug, [("root", .text root), ("files", .number count)], "scanned python files".toList⟩

/-- Goes through the files that were found; `stopped` is met behind the last of them. -/
def select (root : Text) (exclude : List Text) (cancelled : Bool) (stopped : Option WalkError) :
    List Text → Except Error (List Text) × List Event
  | [] =>
    match stopped with
    | some e => (.error (.walking root e), [])
    | none => (.ok [], [])
  | path :: rest =>
    if cancelled then (.error (.cancelled root), [])
    else
      match choose path exclude with
      | .malformed p => (.error (.matching root p), [])
      | .excluded p =>
        let (r, es) := select root exclude cancelled stopped rest
        (r, ignoredEvent path p :: es)
      | .kept =>
        let (r, es) := select root exclude cancelled stopped rest
        (r.map (Path.join root path :: ·), es)

/-- The Python files below a directory that no pattern excludes. -/
def pythonFiles (t : FileTree) (cwd : Location) (root : Text) (exclude : List Text)
    (cancelled : Bool) : Except Error (List Text) × List Event :=
  match Glob.validate exclude with
  | .error e => (.error (.badPattern e), [])
  | .ok () =>
    let (found, stopped) := walkRoot t cwd root
    match select root exclude cancelled stopped found with
    | (.ok files, es) => (.ok files, es ++ [scannedEvent root files.length])
    | (.error e, es) => (.error e, es)

end AbsoluteImports.Scan
