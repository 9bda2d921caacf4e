import AbsoluteImports.Event
import AbsoluteImports.Glob.Pattern
import AbsoluteImports.Path

/-!
# Configurations

Which directories to convert, which files to leave out, and how. A configuration is checked
and completed before it is used; its relative directories are meant from the directory of the
file that it was read from.
-/

namespace AbsoluteImports

/-- The settings of a run. -/
structure Config where
  directories : List Text
  exclude : List Text
  workers : Int
  dryRun : Bool
  /-- The file that the settings were read from, empty for the settings without a file. -/
  location : Text
  deriving DecidableEq, Repr

namespace Config

def empty : Config := ⟨[], [], 0, false, []⟩

def default : Config := { empty with directories := [Path.here], workers := 1 }

/-! ### Checking -/

inductive Invalid where
  | negativeWorkers (n : Int)
  | badPattern (e : Glob.Error)
  | emptyDirectory (index : Nat)
  deriving DecidableEq, Repr

def Invalid.message : Invalid → String
  | negativeWorkers n => "workers must not be negative, got " ++ toString n
  | badPattern e => e.message
  | emptyDirectory i => "directories[" ++ toString i ++ "] is empty"

/-- Cleans directories up to the first empty one, whose index is given; the directories are
numbered from `first` on. -/
def cleanFrom (first : Nat) : List Text → List Text × Option Nat
  | [] => ([], none)
  | d :: rest =>
    if d.isEmpty then (d :: rest, some first)
    else
      let (cleaned, found) := cleanFrom (first + 1) rest
      (Path.clean d :: cleaned, found)

/-- Checks settings and fills in what is missing. The settings as far as they were completed
are given in any case. -/
def validate (c : Config) : Except Invalid Unit × Config :=
  if c.workers < 0 then (.error (.negativeWorkers c.workers), c)
  else
    let counted := if c.workers = 0 then { c with workers := 1 } else c
    match Glob.validate c.exclude with
    | .error e => (.error (.badPattern e), counted)
    | .ok () =>
      let named := if c.directories.isEmpty then [Path.here] else c.directories
      let (directories, found) := cleanFrom 0 named
      let cleaned := { counted with directories := directories }
      match found with
      | some i => (.error (.emptyDirectory i), cleaned)
      | none => (.ok (), cleaned)

def validatedEvent (c : Config) : Event :=
  ⟨.debug, [("directories", .texts c.directories), ("exclude", .texts c.exclude),
    ("workers", .number c.workers), ("dry_run", .flag c.dryRun)], "validated config".toList⟩

/-! ### Directories -/

/-- The directories, the relative ones below the directory of the file of the settings. -/
def resolvedDirectories (c : Config) : List Text :=
  if c.location.isEmpty then c.directories
  else
    c.directories.map fun d =>
      if Path.isAbsolute d then d else Path.join (Path.parent c.location) d

end Config

end AbsoluteImports
