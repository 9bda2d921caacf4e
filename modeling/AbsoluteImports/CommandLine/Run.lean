import AbsoluteImports.Batch
import AbsoluteImports.Build
import AbsoluteImports.CommandLine.Selection
import AbsoluteImports.Config.Load

/-!
# Running a command line

What the program prints, what it reports, how it ends, and the tree that it leaves.
-/

namespace AbsoluteImports.CommandLine

/-- What a run of the program finds. -/
structure Surroundings where
  tree : FileTree
  cwd : Location
  env : Config.Environment
  build : Build
  terminal : Terminal
  cancel : Cancellation

/-- Why a run of the program fails. -/
inductive Error where
  | flag (e : FlagError)
  | unknownCommand (word : Text)
  | unexpectedArgument (c : Command) (word : Text)
  | config (e : Config.Error)
  | setup (e : SetupError)
  | converting (dir : Text) (e : Conversion.Error)
  /-- Files failed while imports were made absolute. -/
  | notConverted (count : Nat)
  /-- Files failed while imports were looked for. -/
  | notRead (count : Nat)
  /-- Files hold relative imports. -/
  | relativeImports (count : Nat)
  deriving DecidableEq, Repr

def proposalText (word : Text) : String :=
  match proposals word with
  | [] => ""
  | cs => "\n\nDid you mean this?\n" ++ String.join (cs.map fun c => "\t" ++ c.name ++ "\n")

def Error.message : Error → String
  | flag e => e.message
  | unknownCommand word =>
    "unknown command " ++ Text.quoted word ++ " for " ++ Text.quoted programName.toList ++
      proposalText word
  | unexpectedArgument c word =>
    "unknown command " ++ Text.quoted word ++ " for " ++ Text.quoted c.path.toList
  | config e => "loading config: " ++ e.message
  | setup e => "creating converter: " ++ e.message
  | converting dir e => "converting " ++ String.ofList dir ++ ": " ++ e.message
  | notConverted n => toString n ++ " file(s) could not be converted"
  | notRead n => toString n ++ " file(s) could not be read"
  | relativeImports n => toString n ++ " file(s) contain relative imports"

/-- What a run of the program did. -/
structure Execution where
  /-- What was printed. -/
  output : Text
  /-- The events that are shown. -/
  events : List Event
  error : Option Error
  tree : FileTree

/-! ### Settings -/

/-- The settings of a run: those of the named file, or of the default file where it exists, or
else those without a file. -/
def settings (s : Surroundings) (g : Given) : Except Config.Error Config × List Event :=
  match g.config with
  | some path => Config.load s.tree s.cwd s.env path
  | none =>
    match s.tree.stat s.cwd Flag.defaultConfig.toList with
    | .error f =>
      if f.cause = .noEntry then (.ok .default, [])
      else Config.load s.tree s.cwd s.env Flag.defaultConfig.toList
    | .ok _ => Config.load s.tree s.cwd s.env Flag.defaultConfig.toList

/-- The directories of a run: the arguments, or without them those of the settings. -/
def directories (c : Config) (g : Given) : List Text :=
  if g.arguments.isEmpty then c.resolvedDirectories else g.arguments

/-- The options of a conversion. What the command line gives counts before the settings, except
that patterns of both are used and either can ask for a dry run. -/
def options (cwd : Location) (c : Config) (g : Given) (checkOnly : Bool) : Options where
  files := some (.plain cwd)
  workers := g.workers.getD c.workers
  exclude := c.exclude ++ g.exclude
  dryRun := checkOnly || g.dryRun || c.dryRun

/-! ### Conversion -/

def opening (dryRun : Bool) : Text :=
  if dryRun then "checking relative imports".toList else "converting relative imports".toList

def ending (checkOnly : Bool) (t : Totals) : Option Error :=
  if checkOnly then
    if 0 < t.failed then some (.notRead t.failed)
    else if 0 < t.updated then some (.relativeImports t.updated)
    else none
  else if 0 < t.failed then some (.notConverted t.failed)
  else none

def convertWith (s : Surroundings) (c : Converter) (dirs : List Text) (checkOnly : Bool) :
    Report × Option Error × FileTree :=
  let runs := Batch.runs c s.cancel s.cwd s.tree dirs
  let shown := Report.header s.terminal (opening c.dryRun) ++ Batch.report s.terminal runs
  let left := Batch.left s.tree runs
  match Batch.failure? runs with
  | some (dir, e) => (shown, some (.converting dir e), left)
  | none =>
    let totals := Batch.totals runs
    (shown ++ totals.closing s.terminal c.dryRun, ending checkOnly totals, left)

def conversion (s : Surroundings) (g : Given) (checkOnly : Bool) :
    Report × Option Error × FileTree :=
  match settings s g with
  | (.error e, events) => (⟨[], events⟩, some (.config e), s.tree)
  | (.ok config, events) =>
    match Converter.ofOptions (options s.cwd config g checkOnly) with
    | .error e => (⟨[], events⟩, some (.setup e), s.tree)
    | .ok c =>
      let (shown, error, left) := convertWith s c (directories config g) checkOnly
      (⟨[], events⟩ ++ shown, error, left)

/-! ### Commands -/

def shownLevel (g : Given) : Level := if g.debug then .debug else .warn

def printed (s : Surroundings) (output : Text) : Execution := ⟨output, [], none, s.tree⟩

def refused (s : Surroundings) (e : Error) : Execution := ⟨[], [], some e, s.tree⟩

def converted (s : Surroundings) (g : Given) (checkOnly : Bool) : Execution :=
  let (shown, error, left) := conversion s g checkOnly
  ⟨shown.console, Event.atLeast (some (shownLevel g)) shown.events, error, left⟩

/-- Runs a command with what is given to it. The program without a command, and the command
for completion scripts, show their help. -/
def runCommand (s : Surroundings) (c : Command) (g : Given) : Execution :=
  if g.help then printed s c.helpText
  else
    match c with
    | .program | .completion => printed s c.helpText
    | .convert => converted s g false
    | .check => converted s g true
    | .version =>
      match g.arguments with
      | [] => printed s (if g.json then s.build.json else s.build.text)
      | word :: _ => refused s (.unexpectedArgument c word)
    | .help =>
      match select g.arguments with
      | .ok (topic, _) => printed s topic.helpText
      | .error _ => printed s (Command.unknownTopic g.arguments)

def run (s : Surroundings) (words : List Text) : Execution :=
  match select words with
  | .error word => refused s (.unknownCommand word)
  | .ok (c, rest) =>
    match readWords c.flags .nothing rest with
    | .error e => refused s (.flag e)
    | .ok g => runCommand s c g

/-- The lines of the events of a run, with the time that stands first in them. -/
def Execution.eventLines (x : Execution) (time : String) : Text :=
  x.events.flatMap (Event.line time)

end AbsoluteImports.CommandLine
