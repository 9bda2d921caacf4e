import AbsoluteImports.CommandLine.Run
import Std.Time.Zoned

/-!
# The program

Takes a picture of the part of the disk that a command line reaches, runs the command line on
it, and puts what changed back on the disk. The picture holds the file of the settings and
everything below the directories to convert.
-/

namespace AbsoluteImports.Main

open CommandLine

/-! ### The picture -/

def pathOf (l : Location) : String := String.ofList (Path.render true l)

def locationOf (cwd : Location) (path : Text) : Location :=
  Path.components (Path.absolute (Path.render true cwd) path)

def entryAt (l : Location) : IO.FS.DirEntry :=
  ⟨⟨pathOf l.dropLast⟩, String.ofList (l.getLastD [])⟩

/-- Puts the entry at a location into a picture, and all on the way to it. Behind a link the
place that it leads to is put in too. -/
partial def record (t : FileTree) (l : Location) : IO FileTree := do
  if (t.get? l).isSome then return t
  let t ← record t l.dropLast
  let path := (entryAt l).path
  match ← path.symlinkMetadata.toBaseIO with
  | .error _ => return t
  | .ok found =>
    match found.type with
    | .dir => return t.set l .directory
    | .symlink =>
      match ← (IO.FS.realPath path).toBaseIO with
      | .error _ => return t.set l (.link (pathOf l ++ ".missing").toList)
      | .ok real =>
        record (t.set l (.link real.toString.toList)) (Path.components real.toString.toList)
    | _ =>
      match ← (IO.FS.readBinFile path).toBaseIO with
      | .error _ => return t
      | .ok content => return t.set l (.file content.toList 0o644)

/-- Puts everything at and below a location into a picture. -/
partial def recordBelow (t : FileTree) (l : Location) : IO FileTree := do
  let t ← record t l
  match t.get? l with
  | some .directory =>
    match ← (entryAt l).path.readDir.toBaseIO with
    | .error _ => return t
    | .ok children => children.foldlM (fun t c => recordBelow t (l ++ [c.fileName.toList])) t
  | some (.link target) =>
    let behind := Path.components target
    if (t.children behind).isEmpty then recordBelow t behind else return t
  | _ => return t

/-! ### Surroundings -/

def environment : IO Config.Environment := do
  match ← (IO.FS.readBinFile "/proc/self/environ").toBaseIO with
  | .error _ => return []
  | .ok content =>
    let pairs := Text.splitAt (Char.ofNat 0) (Utf8.decodeLenient content.toList)
    return pairs.filterMap fun v =>
      match v.dropWhile (· != '=') with
      | _ :: value => some (v.takeWhile (· != '='), value)
      | [] => none

def timeOfDay : IO String := do
  let now ← Std.Time.Timestamp.now
  let minutes := (now.toSecondsSinceUnixEpoch.val / 60 % 1440).toNat
  let hour := toString ((minutes / 60 + 11) % 12 + 1)
  let minute := (if minutes % 60 < 10 then "0" else "") ++ toString (minutes % 60)
  return hour ++ ":" ++ minute ++ (if minutes < 720 then "AM" else "PM")

def build : Build := ⟨"dev".toList, "unknown".toList, "unknown".toList, [], false⟩

def given? (words : List Text) : Option Given :=
  match select words with
  | .error _ => none
  | .ok (c, rest) => (readWords c.flags .nothing rest).toOption

/-- The paths that a command line reads with its settings: the directories to convert. -/
def reached (s : Surroundings) (g : Given) : List Text :=
  match (settings s g).1 with
  | .error _ => []
  | .ok config => directories config g

def surroundings (words : List Text) : IO Surroundings := do
  let cwd := Path.components (← IO.currentDir).toString.toList
  let s : Surroundings := ⟨← record .empty cwd, cwd, ← environment, build, ⟨false⟩, .never⟩
  match given? words with
  | none => return s
  | some g =>
    let file := g.config.getD Flag.defaultConfig.toList
    let s := { s with tree := ← record s.tree (locationOf cwd file) }
    return { s with tree := ← ((reached s g).map (locationOf cwd)).foldlM recordBelow s.tree }

/-! ### Running -/

/-- Puts the files that differ between two pictures on the disk. -/
def store (before after : FileTree) : IO Unit :=
  after.entries.forM fun (l, e) => do
    match e with
    | .file content _ =>
      unless before.get? l == some e do
        if let some (.link _) := before.get? l then IO.FS.removeFile (entryAt l).path
        IO.FS.writeBinFile (entryAt l).path ⟨content.toArray⟩
    | _ => return ()

/-- Runs a command line; the result is the code that the program ends with. -/
def runWords (words : List String) : IO UInt32 := do
  let s ← surroundings (words.map String.toList)
  let x := CommandLine.run s (words.map String.toList)
  store s.tree x.tree
  (← IO.getStdout).putStr (String.ofList x.output)
  (← IO.getStderr).putStr (String.ofList (x.eventLines (← timeOfDay)))
  match x.error with
  | none => return 0
  | some e =>
    (← IO.getStderr).putStrLn ("ERROR " ++ e.message)
    return 1

end AbsoluteImports.Main

def main (words : List String) : IO UInt32 := AbsoluteImports.Main.runWords words
