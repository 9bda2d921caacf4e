import AbsoluteImports.Event
import AbsoluteImports.Summary
import AbsoluteImports.Text.Template

/-!
# Reports

What a run shows: lines on the terminal, with or without colours, and the events that go
with them.
-/

namespace AbsoluteImports

/-! ### Colours -/

/-- How a text is shown on a terminal. -/
inductive Shade where
  | bold
  | faint
  | red
  | green
  | yellow
  | blue
  | magenta
  | cyan
  deriving DecidableEq, Repr

def Shade.code : Shade → String
  | bold => "1"
  | faint => "2"
  | red => "31"
  | green => "32"
  | yellow => "33"
  | blue => "34"
  | magenta => "35"
  | cyan => "36"

def Shade.reset : Shade → String
  | bold | faint => "22"
  | _ => "0"

/-- A terminal, with or without colours. -/
structure Terminal where
  colour : Bool
  deriving DecidableEq, Repr

def Terminal.escape (codes : List String) : Text :=
  '\x1b' :: '[' :: Text.joinWith ';' (codes.map String.toList) ++ ['m']

/-- A text in some shades; on a terminal without colours it stands alone. -/
def Terminal.paint (o : Terminal) (shades : List Shade) (t : Text) : Text :=
  if o.colour then
    escape (shades.map Shade.code) ++ t ++ escape (shades.map Shade.reset)
  else t

/-- What is shown: text for the terminal and events. -/
structure Report where
  console : Text
  events : List Event
  deriving DecidableEq, Repr

namespace Report

def nothing : Report := ⟨[], []⟩

instance : Append Report := ⟨fun a b => ⟨a.console ++ b.console, a.events ++ b.events⟩⟩

/-! ### Single lines -/

def newline : Report := ⟨['\n'], []⟩

def header (o : Terminal) (message : Text) : Report :=
  ⟨'\n' :: o.paint [.bold, .cyan] "pyimports".toList ++ ' ' ::
      o.paint [.faint] ("• ".toList ++ message) ++ "\n\n".toList,
    [⟨.info, [], message⟩]⟩

def line (o : Terminal) (sign : String) (shade : Shade) (level : Level) (message : Text) : Report :=
  ⟨sign.toList ++ o.paint [shade] message ++ ['\n'], [⟨level, [], message⟩]⟩

def success (o : Terminal) : Text → Report := line o "✅ " .green .info

def warning (o : Terminal) : Text → Report := line o "⚠️  " .yellow .warn

def failure (o : Terminal) : Text → Report := line o "❌ " .red .error

def info (o : Terminal) : Text → Report := line o "ℹ️  " .cyan .info

/-! ### Summaries -/

def nameWidth : Nat := 35

def outcomeWidth : Nat := 15

def outcomeSign (dryRun : Bool) : Outcome → Text × Shade × String
  | .failed => ("✗".toList, .red, "failed")
  | .updated =>
    if dryRun then ("⟳".toList, .blue, "would update") else ("✓".toList, .green, "updated")
  | o => ("-".toList, .yellow, o.name)

def detail (o : Terminal) (r : Result) : Text :=
  match r.error, r.changes.length with
  | some e, _ => o.paint [.red] e.message.toList
  | none, 0 => []
  | none, 1 => o.paint [.faint] "1 import".toList
  | none, n => o.paint [.faint] (toString n ++ " imports").toList

/-- The name a file is shown with: its path from the directory, or the path itself where
there is none. -/
def shownName (dir path : Text) : Text := (Path.relative? dir path).getD path

def resultLine (o : Terminal) (dir : Text) (dryRun : Bool) (r : Result) : Text :=
  let (sign, shade, called) := outcomeSign dryRun r.outcome
  "    ".toList ++ o.paint [shade] sign ++ ' ' :: Text.padRight nameWidth (shownName dir r.path) ++
    ' ' :: Text.padRight outcomeWidth called.toList ++ ' ' :: detail o r ++ ['\n']

def resultEvent (dryRun : Bool) (r : Result) : Event :=
  let fields := [("file", .text r.path), ("outcome", .text r.outcome.name.toList),
    ("changes", .number r.changes.length), ("dry_run", .flag dryRun)]
  match r.error with
  | some e => ⟨.error, ("error", .text e.message.toList) :: fields, "file result".toList⟩
  | none => ⟨.debug, fields, "file result".toList⟩

def summary (o : Terminal) (s : Summary) : Report :=
  let title := "[converting ".toList ++ o.paint [.cyan] s.directory ++ "]\n".toList
  if s.skipped then
    ⟨title ++ o.paint [.yellow] "◆".toList ++ ' ' ::
        o.paint [.faint] "not a package, skipped".toList ++ ['\n'],
      [⟨.warn, [("directory", .text s.directory)], "directory skipped".toList⟩]⟩
  else
    ⟨title ++ o.paint [.magenta] "◆".toList ++ ' ' :: o.paint [.bold] s.package ++
        '\n' :: s.results.flatMap (resultLine o s.directory s.dryRun),
      s.results.map (resultEvent s.dryRun) ++
        [⟨.info, [("directory", .text s.directory), ("package", .text s.package),
          ("files", .number s.results.length), ("modified", .number (s.count .updated)),
          ("failed", .number (s.count .failed))], "directory complete".toList⟩]⟩

/-! ### The terminal of a run -/

/-- A run has no terminal to show things on. -/
inductive Error where
  | noTerminal
  deriving DecidableEq, Repr

def Error.message : Error → String
  | noTerminal => "logger not found in context"

def stored : Option Terminal → Except Error Terminal
  | some o => .ok o
  | none => .error .noTerminal

end Report

end AbsoluteImports
