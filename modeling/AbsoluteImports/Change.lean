import AbsoluteImports.ImportLine

/-!
# Changes

Making the imports of a list of lines absolute gives a list of the same length and
the list of changes: one for each line that reads differently afterwards, in order.
-/

namespace AbsoluteImports

/-- A line that was made absolute. -/
structure Change where
  /-- Position of the line, from zero. -/
  index : Nat
  /-- The line as it was. -/
  before : Text
  /-- The line as it is now. -/
  after : Text
  deriving DecidableEq, Repr

/-- The line after its import was made absolute; any other line is kept. -/
def absoluteLine (package line : Text) : Text := (ImportLine.absolute? package line).getD line

def absoluteLines (package : Text) (lines : List Text) : List Text :=
  lines.map (absoluteLine package)

namespace Change

/-- The changes of lines that are numbered from `first` on. -/
def listFrom (package : Text) : Nat → List Text → List Change
  | _, [] => []
  | first, line :: rest =>
    match ImportLine.absolute? package line with
    | some text => ⟨first, line, text⟩ :: listFrom package (first + 1) rest
    | none => listFrom package (first + 1) rest

def list (package : Text) (lines : List Text) : List Change := listFrom package 0 lines

end Change

end AbsoluteImports
