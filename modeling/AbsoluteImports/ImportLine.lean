import AbsoluteImports.Text.Basic

/-!
# Relative import lines

A single-line relative import such as `from .helpers import load  # why` is cut
into its parts, and rendered again with an absolute module. Only a line with
exactly one leading dot is made absolute: two dots and more point above the
package.

The grammar of an accepted line is: white space, `from`, one space, dots, an
optional dotted name, white space, `import`, white space, the imported names, and
then either a comment or trailing white space. A line with a backslash, with the
text `import (` or with an open parenthesis at its end belongs to a statement
over several lines and is never accepted.
-/

namespace AbsoluteImports

/-- A relative import cut into its parts. -/
structure ImportLine where
  /-- White space before the statement. -/
  indent : Text
  /-- Number of dots before the module. -/
  dots : Nat
  /-- Dotted name after the dots, empty in `from . import x`. -/
  module : Text
  /-- The imported names, without white space around them. -/
  imported : Text
  /-- Trailing comment with the white space before it, empty when there is none. -/
  comment : Text
  deriving DecidableEq, Repr

namespace ImportLine

def empty : ImportLine := ⟨[], 0, [], [], []⟩

/-- The absolute module that the import means inside `package`. -/
def target (l : ImportLine) (package : Text) : Text :=
  if l.module.isEmpty then package else package ++ '.' :: l.module

def absolute (l : ImportLine) (package : Text) : Text :=
  l.indent ++ "from ".toList ++ l.target package ++ " import ".toList ++ l.imported ++ l.comment

/-! ### Reading -/

/-- First character of a dotted name. -/
def isNameStart (c : Char) : Bool := c.isAlpha || c == '_'

/-- Later character of a dotted name. -/
def isNameRest (c : Char) : Bool := c.isAlphanum || c == '_' || c == '.'

/-- The optional dotted name at the start of a text, and what follows it. -/
def takeModule : Text → Text × Text
  | [] => ([], [])
  | c :: r =>
    if isNameStart c then (c :: r.takeWhile isNameRest, r.dropWhile isNameRest) else ([], c :: r)

/-- The comment that fills the text up to its end: white space, a hash and the
rest of the line. After a line feed only white space may follow, and is left out. -/
def comment? (s : Text) : Option Text :=
  match s.dropWhile Text.isBlank with
  | '#' :: r =>
    if Text.allBlank (r.dropWhile (· != '\n')) then
      some (s.takeWhile Text.isBlank ++ '#' :: r.takeWhile (· != '\n'))
    else none
  | _ => none

/-- Cuts what follows `import` into the imported names and the comment: the names
end at the first place from where a comment or white space reaches the end. A line
feed cannot stand inside the names. -/
def takeImported : Text → Option (Text × Text)
  | [] => some ([], [])
  | c :: r =>
    match comment? (c :: r) with
    | some k => some ([], k)
    | none =>
      if Text.allBlank (c :: r) then some ([], [])
      else if c = '\n' then none
      else (takeImported r).map fun (w, k) => (c :: w, k)

/-- Whether the line is part of a statement over several lines, or says so. -/
def spansLines (line : Text) : Bool :=
  line.contains '\\' || Text.holds "import (".toList line ||
    Text.endsWith ['('] (Text.trimRight line)

/-- What follows white space, of which at least one character is required. -/
def skipBlanks? : Text → Option Text
  | [] => none
  | c :: r => if Text.isBlank c then some (r.dropWhile Text.isBlank) else none

def parse? (line : Text) : Option ImportLine := do
  if spansLines line then none
  let start ← Text.stripStart? "from ".toList (Text.trimLeft line)
  let dots := start.takeWhile (· == '.')
  if dots.isEmpty then none
  let (module, afterModule) := takeModule (start.dropWhile (· == '.'))
  let afterKeyword ← Text.stripStart? "import".toList (← skipBlanks? afterModule)
  let (names, comment) ← takeImported (← skipBlanks? afterKeyword)
  let imported := Text.trimRight names
  if imported.isEmpty then none
  some ⟨line.takeWhile Text.isBlank, dots.length, module, imported, comment⟩

/-- The absolute form of a line that is an import with exactly one dot, unless the
line already reads so. -/
def absolute? (package line : Text) : Option Text := do
  let l ← parse? line
  if l.dots ≠ 1 then none
  let text := l.absolute package
  if text = line then none else some text

end ImportLine

end AbsoluteImports
