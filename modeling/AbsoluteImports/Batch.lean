import AbsoluteImports.Conversion
import AbsoluteImports.Totals

/-!
# Conversion of several directories

Directories are converted one after the other, each in the tree that the one before left. The
first directory that fails ends the batch.
-/

namespace AbsoluteImports.Batch

/-- The runs over directories in turn, each with its directory. -/
def runs (c : Converter) (cancel : Cancellation) (cwd : Location) :
    FileTree → List Text → List (Text × Conversion.Run)
  | _, [] => []
  | t, dir :: rest =>
    let r := Conversion.run c cancel t cwd dir
    (dir, r) :: if r.error.isSome then [] else runs c cancel cwd r.tree rest

def summaries (rs : List (Text × Conversion.Run)) : List Summary := rs.filterMap (·.2.summary)

def totals (rs : List (Text × Conversion.Run)) : Totals := .ofSummaries (summaries rs)

def left (t : FileTree) (rs : List (Text × Conversion.Run)) : FileTree :=
  match rs.getLast? with
  | some (_, r) => r.tree
  | none => t

/-- The directory that ended a batch, and why. -/
def failure? (rs : List (Text × Conversion.Run)) : Option (Text × Conversion.Error) :=
  rs.findSome? fun (dir, r) => r.error.map (dir, ·)

/-- What one run shows: its events, then its summary and an empty line. -/
def runReport (o : Terminal) (r : Conversion.Run) : Report :=
  ⟨[], r.events⟩ ++
    match r.summary with
    | some s => .summary o s ++ .newline
    | none => .nothing

def report (o : Terminal) (rs : List (Text × Conversion.Run)) : Report :=
  rs.foldr (fun (_, r) shown => runReport o r ++ shown) .nothing

end AbsoluteImports.Batch
