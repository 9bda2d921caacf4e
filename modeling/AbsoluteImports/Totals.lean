import AbsoluteImports.Package
import AbsoluteImports.Report

/-!
# Totals

The counts over all directories of a run, the table that shows them, and the lines that close
a run.
-/

namespace AbsoluteImports

/-- The counts over the summaries of several directories. -/
structure Totals where
  directories : Nat
  skipped : Nat
  files : Nat
  updated : Nat
  unchanged : Nat
  failed : Nat
  /-- The number of lines that were made absolute. -/
  imports : Nat
  deriving DecidableEq, Repr

namespace Totals

def zero : Totals := ⟨0, 0, 0, 0, 0, 0, 0⟩

def add (t : Totals) (s : Summary) : Totals where
  directories := t.directories + 1
  skipped := t.skipped + if s.skipped then 1 else 0
  files := t.files + s.results.length
  updated := t.updated + s.count .updated
  unchanged := t.unchanged + s.count .unchanged
  failed := t.failed + s.count .failed
  imports := t.imports + s.changeCount

def ofSummaries (ss : List Summary) : Totals := ss.foldl add zero

/-! ### The table -/

def columns (t : Totals) (dryRun : Bool) : List (Text × Text) :=
  [("directories", t.directories), ("skipped", t.skipped), ("files", t.files),
    (if dryRun then "would update" else "updated", t.updated), ("unchanged", t.unchanged),
    ("failed", t.failed), ("imports", t.imports)].map fun (title, n) =>
      (title.toList, Nat.toDigits 10 n)

/-- One row of the table, each cell filled up to the width of its column. -/
def row (cells : List (Nat × Text)) : Text :=
  Text.joinText " | ".toList (cells.map fun (width, cell) => Text.padRight width cell) ++ ['\n']

def table (t : Totals) (dryRun : Bool) : Text :=
  let widths := (t.columns dryRun).map fun (title, n) => max title.length n.length
  row (widths.zip ((t.columns dryRun).map (·.1))) ++ row (widths.zip ((t.columns dryRun).map (·.2)))

/-! ### Closing lines -/

/-- The line that says how a run ended. -/
def verdict (o : Terminal) (t : Totals) (dryRun : Bool) : Report :=
  let filled := fun (template : String) (ns : List Nat) =>
    Text.fill template.toList (ns.map fun (n : Nat) => .number n)
  if 0 < t.failed then .failure o (filled "%d of %d file(s) failed" [t.failed, t.files])
  else if dryRun then
    if 0 < t.updated then
      .info o (filled "%d import(s) in %d file(s) would be rewritten" [t.imports, t.updated])
    else .success o "no relative imports found".toList
  else .success o (filled "%d import(s) rewritten in %d file(s)" [t.imports, t.updated])

/-- The line about directories that are not packages, where there are any. -/
def skippedLine (o : Terminal) (t : Totals) : Report :=
  if 0 < t.skipped then
    .warning o (Text.fill "%d of %d directories skipped, no %s found".toList
      [.number t.skipped, .number t.directories, .text Package.marker])
  else .nothing

def closing (o : Terminal) (t : Totals) (dryRun : Bool) : Report :=
  ⟨t.table dryRun, []⟩ ++ .newline ++ t.skippedLine o ++ t.verdict o dryRun

end Totals

end AbsoluteImports
