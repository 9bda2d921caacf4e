import AbsoluteImports.Text.Basic

/-!
# Paths

A path is a text with slashes. Cleaning, joining and taking apart are lexical: they look
at the text alone, never at a file tree. A clean path has no empty component, no `.`
except as the whole path, and `..` only in front of a path that is not absolute.
-/

namespace AbsoluteImports.Path

/-- The component that stands for the directory itself. -/
def here : Text := ['.']

/-- The component that stands for the directory above. -/
def above : Text := ['.', '.']

def isAbsolute (p : Text) : Bool := p.head? == some '/'

/-! ### Cleaning -/

/-- One component is added to a stack of components, the last on top: `..` takes one away
again, and goes no higher than the root of an absolute path. -/
def push (rooted : Bool) (stack : List Text) (c : Text) : List Text :=
  if c = [] ∨ c = here then stack
  else if c = above then
    match stack with
    | [] => if rooted then [] else [above]
    | top :: rest => if top = above then above :: top :: rest else rest
  else c :: stack

/-- The components of a path after cleaning. -/
def reduce (rooted : Bool) (components : List Text) : List Text :=
  (components.foldl (push rooted) []).reverse

def render (rooted : Bool) (components : List Text) : Text :=
  if rooted then '/' :: Text.joinWith '/' components
  else if components.isEmpty then here
  else Text.joinWith '/' components

def components (p : Text) : List Text := reduce (isAbsolute p) (Text.splitAt '/' p)

/-- The shortest path with the same lexical meaning. -/
def clean (p : Text) : Text := render (isAbsolute p) (components p)

/-- The clean path of one path below another; empty paths do not count. -/
def join (a b : Text) : Text :=
  if a.isEmpty then if b.isEmpty then [] else clean b else clean (a ++ '/' :: b)

/-- The clean path made absolute against a working directory. -/
def absolute (cwd p : Text) : Text := if isAbsolute p then clean p else join cwd p

/-! ### Taking apart -/

/-- What stands behind the last slash. -/
def lastElement (p : Text) : Text := (p.reverse.takeWhile (· != '/')).reverse

/-- The clean path of the directory that holds the last element. -/
def parent (p : Text) : Text := clean (p.reverse.dropWhile (· != '/')).reverse

/-- The last element, without slashes at its end; `.` for the empty path and `/` for the
root directory. -/
def base (p : Text) : Text :=
  if p.isEmpty then here
  else
    let stripped := (p.reverse.dropWhile (· == '/')).reverse
    if stripped.isEmpty then ['/'] else lastElement stripped

/-- The last element from its last dot on, or nothing when it has no dot. -/
def extension (p : Text) : Text :=
  let last := lastElement p
  if last.contains '.' then '.' :: (last.reverse.takeWhile (· != '.')).reverse else []

/-- What is left of two lists without their common beginning. -/
def dropCommon : List Text → List Text → List Text × List Text
  | a :: as, b :: bs => if a = b then dropCommon as bs else (a :: as, b :: bs)
  | as, bs => (as, bs)

/-- The path from a base directory to a target. There is none when only one of the two is
absolute, or when the way leads up through a `..` of the base. -/
def relative? (baseDir target : Text) : Option Text :=
  if isAbsolute (clean baseDir) != isAbsolute (clean target) then none
  else
    match dropCommon (components baseDir) (components target) with
    | ([], []) => some here
    | (up, down) =>
      if up.head? = some above then none
      else some (Text.joinWith '/' (up.map (fun _ => above) ++ down))

end AbsoluteImports.Path
