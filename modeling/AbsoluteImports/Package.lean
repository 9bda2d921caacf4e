import AbsoluteImports.SourceFile

/-!
# Package directories

A package is a directory that holds a marker file. Its name is the last component of its
absolute path, so that `.` and `..` name the directories they stand for.
-/

namespace AbsoluteImports.Package

/-- The file that makes a directory a package. -/
def marker : Text := "__init__.py".toList

/-- Why a path is not accepted as a directory. -/
inductive DirectoryError where
  | missing (path : Text)
  | notDirectory (path : Text)
  | unchecked (path : Text) (f : FileTree.Failure)
  deriving DecidableEq, Repr

def DirectoryError.message : DirectoryError → String
  | missing p => "directory not found: " ++ String.ofList p
  | notDirectory p => "directory not found: " ++ String.ofList p ++ " is not a directory"
  | unchecked p f => "checking directory " ++ String.ofList p ++ ": " ++ f.message

def validateDirectory (t : FileTree) (cwd : Location) (path : Text) : Except DirectoryError Unit :=
  match t.stat cwd path with
  | .ok e => if e.isDirectory then .ok () else .error (.notDirectory path)
  | .error f => if f.cause = .noEntry then .error (.missing path) else .error (.unchecked path f)

def markerPath (dir : Text) : Text := Path.join dir marker

/-- Whether a directory holds a marker that is not a directory. -/
def isRoot (files : FileAccess) (t : FileTree) (dir : Text) : Except SourceFile.Error Bool :=
  files.isFile t (markerPath dir)

def markerMessage (e : SourceFile.Error) : String := "checking package marker: " ++ e.message

def pathOf (cwd : Location) : Text := Path.render true cwd

def name (cwd : Location) (dir : Text) : Text := Path.base (Path.absolute (pathOf cwd) dir)

end AbsoluteImports.Package
