import AbsoluteImports.FileTree.Basic
import AbsoluteImports.Path

/-!
# Access to a file tree

Paths are followed through a tree the way a file system does: component by component from
the working directory, through symbolic links, up with `..`. Every operation names the call
and the path it failed with. Replacing a file goes through a temporary file beside it, so
that the file is never half written.

A system draws the number in the name of a temporary file at random, below `2 ^ 32`, so that it
has one to ten digits. Here the number is an argument. A name that is taken is followed by the
next number in place of another draw, and the search does not give up.
-/

namespace AbsoluteImports.FileTree

/-! ### Failures -/

/-- What went wrong. -/
inductive Cause where
  | noEntry
  | notDirectory
  | isDirectory
  | nameTooLong
  | invalidArgument
  | tooManyLinks
  | entryExists
  /-- A name for temporary files holds a slash. -/
  | nameHasSlash
  deriving DecidableEq, Repr

def Cause.message : Cause → String
  | noEntry => "no such file or directory"
  | notDirectory => "not a directory"
  | isDirectory => "is a directory"
  | nameTooLong => "file name too long"
  | invalidArgument => "invalid argument"
  | tooManyLinks => "too many levels of symbolic links"
  | entryExists => "file exists"
  | nameHasSlash => "pattern contains path separator"

/-- What was tried, with the paths as they were given. -/
inductive Call where
  | stat (path : Text)
  | open (path : Text)
  | read (path : Text)
  | rename (old new : Text)
  | createTemp (name : Text)
  deriving DecidableEq, Repr

def Call.message : Call → String
  | stat p => "stat " ++ String.ofList p
  | .open p => "open " ++ String.ofList p
  | read p => "read " ++ String.ofList p
  | rename p q => "rename " ++ String.ofList p ++ " " ++ String.ofList q
  | createTemp p => "createtemp " ++ String.ofList p

structure Failure where
  call : Call
  cause : Cause
  deriving DecidableEq, Repr

def Failure.message (f : Failure) : String := f.call.message ++ ": " ++ f.cause.message

/-! ### Following a path -/

/-- The greatest number of bytes of a name. -/
def nameLimit : Nat := 255

/-- The least number of bytes that a path is too long with. -/
def pathLimit : Nat := 4096

/-- The greatest number of links on the way of one path. -/
def linkLimit : Nat := 40

/-- The steps of a path: its components, and a step to the directory itself when the path
ends in a slash. -/
def steps (path : Text) : List Text :=
  (Text.splitAt '/' path).filter (· ≠ []) ++ (if path.getLast? = some '/' then [Path.here] else [])

/-- Follows steps from a location. `follow` goes on from a link's target. -/
def walk (t : FileTree) (follow : Location → List Text → Except Cause Location) :
    Location → List Text → Except Cause Location
  | l, [] => .ok l
  | l, c :: rest =>
    match t.get? l with
    | some .directory =>
      if c = Path.here then walk t follow l rest
      else if c = Path.above then walk t follow l.dropLast rest
      else if nameLimit < (Utf8.encode c).length then .error .nameTooLong
      else
        match t.get? (l ++ [c]) with
        | none => .error .noEntry
        | some (.link target) =>
          follow (if Path.isAbsolute target then [] else l) (steps target ++ rest)
        | some _ => walk t follow (l ++ [c]) rest
    | _ => .error .notDirectory

/-- Follows steps through at most a number of links. -/
def resolve (t : FileTree) : Nat → Location → List Text → Except Cause Location
  | 0 => walk t fun _ _ => .error .tooManyLinks
  | links + 1 => walk t (resolve t links)

/-- The steps of a path and where they start, unless the path itself is unusable. -/
def start (cwd : Location) (path : Text) : Except Cause (Location × List Text) :=
  if path.contains '\x00' then .error .invalidArgument
  else if path.isEmpty then .error .noEntry
  else if pathLimit ≤ (Utf8.encode path).length then .error .nameTooLong
  else .ok (if Path.isAbsolute path then [] else cwd, steps path)

def locate (t : FileTree) (cwd : Location) (path : Text) : Except Cause Location := do
  let (l, cs) ← start cwd path
  resolve t linkLimit l cs

/-- The location that a path names without following a link at its end; there need not be
an entry. -/
def place (t : FileTree) (cwd : Location) (path : Text) : Except Cause Location := do
  let (l, cs) ← start cwd path
  match cs.getLast? with
  | none => .ok l
  | some c =>
    if c = Path.here ∨ c = Path.above then resolve t linkLimit l cs
    else
      let dir ← resolve t linkLimit l cs.dropLast
      match t.get? dir with
      | some .directory =>
        if nameLimit < (Utf8.encode c).length then .error .nameTooLong else .ok (dir ++ [c])
      | _ => .error .notDirectory

/-! ### Reading -/

def stat (t : FileTree) (cwd : Location) (path : Text) : Except Failure Entry :=
  match t.locate cwd path with
  | .error c => .error ⟨.stat path, c⟩
  | .ok l =>
    match t.get? l with
    | some e => .ok e
    | none => .error ⟨.stat path, .noEntry⟩

def readFile (t : FileTree) (cwd : Location) (path : Text) : Except Failure Bytes :=
  match t.locate cwd path with
  | .error c => .error ⟨.open path, c⟩
  | .ok l =>
    match t.get? l with
    | some (.file content _) => .ok content
    | some _ => .error ⟨.read path, .isDirectory⟩
    | none => .error ⟨.open path, .noEntry⟩

/-! ### Replacing a file -/

/-- Puts a new empty file where there is no entry. -/
def openNew (t : FileTree) (cwd : Location) (path : Text) : Except Failure (Location × FileTree) :=
  match t.place cwd path with
  | .error c => .error ⟨.open path, c⟩
  | .ok l =>
    match t.get? l with
    | some _ => .error ⟨.open path, .entryExists⟩
    | none => .ok (l, t.set l (.file [] 0o600))

/-- The name of a temporary file for the file `base`. -/
def tempName (base : Text) (tag : Nat) : Text :=
  '.' :: base ++ '.' :: Nat.toDigits 10 tag ++ ".tmp".toList

/-- The path of a temporary file in a directory. -/
def tempPath (dir base : Text) (tag : Nat) : Text :=
  dir ++ (if dir.getLast? = some '/' then [] else ['/']) ++ tempName base tag

/-- A temporary file that was just made. -/
structure Temp where
  path : Text
  location : Location

/-- Makes a temporary file, counting its number up from `tag` while the name is taken. -/
def openTemp (t : FileTree) (cwd : Location) (dir base : Text) :
    (attempts tag : Nat) → Except Failure (Temp × FileTree)
  | 0, tag =>
    let path := tempPath dir base tag
    (t.openNew cwd path).map fun (l, t') => (⟨path, l⟩, t')
  | n + 1, tag =>
    let path := tempPath dir base tag
    match t.openNew cwd path with
    | .ok (l, t') => .ok (⟨path, l⟩, t')
    | .error f => if f.cause = .entryExists then openTemp t cwd dir base n (tag + 1) else .error f

/-- Makes a temporary file beside the file that a path names, with a number from `tag` on. There
are more attempts than entries, so that a free name is found. -/
def createTemp (t : FileTree) (cwd : Location) (path : Text) (tag : Nat) :
    Except Failure (Temp × FileTree) :=
  let base := Path.base path
  if base.contains '/' then .error ⟨.createTemp ('.' :: base ++ ".*.tmp".toList), .nameHasSlash⟩
  else openTemp t cwd (Path.parent path) base t.entries.length tag

/-- Moves an entry to another path, in place of a file or link that is there; a directory
is never replaced. -/
def rename (t : FileTree) (cwd : Location) (old new : Text) : Except Failure FileTree :=
  let fail := fun c => Except.error ⟨.rename old new, c⟩
  match t.place cwd old, t.place cwd new with
  | .error c, _ => fail c
  | _, .error c => fail c
  | .ok l, .ok l' =>
    match t.get? l, t.get? l' with
    | none, _ => fail .noEntry
    | some _, some .directory => fail .entryExists
    | some e, _ => if l = l' then .ok t else .ok ((t.erase l).set l' e)

/-- What replacing a file was doing when it failed. -/
inductive ReplaceError where
  | checking (f : Failure)
  | creating (f : Failure)
  | moving (f : Failure)
  deriving DecidableEq, Repr

def ReplaceError.failure : ReplaceError → Failure
  | checking f | creating f | moving f => f

def ReplaceError.message : ReplaceError → String
  | checking f => "checking file existence: " ++ f.message
  | creating f => "creating temp file: " ++ f.message
  | moving f => "renaming temp file: " ++ f.message

/-- The permission bits that a replaced file gets: those that it had, or `644`. -/
def replacedMode (t : FileTree) (cwd : Location) (path : Text) : Except Failure Nat :=
  match t.stat cwd path with
  | .ok e => .ok e.mode
  | .error f => if f.cause = .noEntry then .ok 0o644 else .error f

/-- The number that names of temporary files are counted from where nothing else is said. -/
def firstTag : Nat := 1000000000

/-- Replaces the content of a file through a temporary file beside it. The tree that is left
is given in any case: after a failure the temporary file is removed again. -/
def replaceFile (t : FileTree) (cwd : Location) (path : Text) (content : Bytes)
    (tag : Nat := firstTag) : Except ReplaceError Unit × FileTree :=
  match t.replacedMode cwd path with
  | .error f => (.error (.checking f), t)
  | .ok mode =>
    match t.createTemp cwd path tag with
    | .error f => (.error (.creating f), t)
    | .ok (temp, created) =>
      let written := created.set temp.location (.file content 0o600)
      let ready := written.set temp.location (.file content mode)
      match ready.rename cwd temp.path path with
      | .error f => (.error (.moving f), ready.erase temp.location)
      | .ok renamed => (.ok (), renamed)

end AbsoluteImports.FileTree
