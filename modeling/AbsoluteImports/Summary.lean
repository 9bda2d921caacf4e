import AbsoluteImports.Change
import AbsoluteImports.SourceFile

/-!
# Summaries

What became of each file of a directory, and the counts that reports show.
-/

namespace AbsoluteImports

inductive Outcome where
  /-- Nothing to change; the file was not touched. -/
  | unchanged
  /-- At least one line was made absolute. -/
  | updated
  /-- The file could not be read or written. -/
  | failed
  /-- Not known; a conversion never gives this. -/
  | unknown
  deriving DecidableEq, Repr

def Outcome.name : Outcome → String
  | unchanged => "unchanged"
  | updated => "updated"
  | failed => "failed"
  | unknown => "unknown"

def Outcome.ofCode : Int → Outcome
  | 0 => unchanged
  | 1 => updated
  | 2 => failed
  | _ => unknown

structure Result where
  path : Text
  outcome : Outcome
  /-- The lines that were made absolute. -/
  changes : List Change
  /-- Why the file failed. -/
  error : Option SourceFile.Error
  deriving DecidableEq, Repr

/-- What became of the files of one directory. -/
structure Summary where
  directory : Text
  /-- Name of the package, empty when the directory was skipped. -/
  package : Text
  /-- The directory is not a package. -/
  skipped : Bool
  /-- Nothing was written. -/
  dryRun : Bool
  /-- One result for each file, in the order of the scan. -/
  results : List Result
  deriving DecidableEq, Repr

namespace Summary

def count (s : Summary) (o : Outcome) : Nat := (s.results.filter (·.outcome = o)).length

def failures (s : Summary) : List Result := s.results.filter (·.outcome = .failed)

/-- The number of lines that were made absolute. -/
def changeCount (s : Summary) : Nat :=
  s.results.foldr (fun r n => r.changes.length + n) 0

end Summary

end AbsoluteImports
