import AbsoluteImports.Document
import AbsoluteImports.FileTree.Access

/-!
# Source files

A source file is a document in a file tree: it is read with the encoding that its first
bytes show, and written back in the same one. `FileAccess` bundles what a conversion needs,
so that it can be run against files that fail.
-/

namespace AbsoluteImports

namespace SourceFile

/-- Why a source file could not be checked, read or written. -/
inductive Error where
  | checking (f : FileTree.Failure)
  | reading (f : FileTree.Failure)
  | decoding (path : Text) (e : Encoding.Error)
  | writing (path : Text) (e : FileTree.ReplaceError)
  /-- Trouble that some other store of files reports. -/
  | reported (message : String)
  deriving DecidableEq, Repr

def Error.message : Error → String
  | checking f => "checking file existence: " ++ f.message
  | reading f => "reading file: " ++ f.message
  | decoding p e => "reading " ++ String.ofList p ++ ": " ++ e.message
  | writing p e => "writing " ++ String.ofList p ++ ": " ++ e.message
  | reported m => m

def isFile (t : FileTree) (cwd : Location) (path : Text) : Except Error Bool :=
  match t.stat cwd path with
  | .ok e => .ok !e.isDirectory
  | .error f => if f.cause = .noEntry then .ok false else .error (.checking f)

def read (t : FileTree) (cwd : Location) (path : Text) : Except Error Document :=
  match t.readFile cwd path with
  | .error f => .error (.reading f)
  | .ok content =>
    match Document.ofContent content with
    | .error e => .error (.decoding path e)
    | .ok d => .ok d

/-- Stores a document at a path, and gives the tree that is left. -/
def write (t : FileTree) (cwd : Location) (path : Text) (d : Document)
    (tag : Nat := FileTree.firstTag) : Except Error Unit × FileTree :=
  match t.replaceFile cwd path d.content tag with
  | (.error e, left) => (.error (.writing path e), left)
  | (.ok (), left) => (.ok (), left)

end SourceFile

/-- What a conversion does with files. -/
structure FileAccess where
  /-- Whether a path names something that is not a directory. -/
  isFile : FileTree → Text → Except SourceFile.Error Bool
  /-- The document at a path. -/
  read : FileTree → Text → Except SourceFile.Error Document
  /-- Stores a document at a path. -/
  write : FileTree → Text → Document → Except SourceFile.Error Unit × FileTree

/-- The files of the tree itself, for paths that start at a working directory. The temporary file
for a path gets a number from `tags path` on. -/
def FileAccess.plain (cwd : Location) (tags : Text → Nat := fun _ => FileTree.firstTag) :
    FileAccess where
  isFile t path := SourceFile.isFile t cwd path
  read t path := SourceFile.read t cwd path
  write t path d := SourceFile.write t cwd path d (tags path)

end AbsoluteImports
