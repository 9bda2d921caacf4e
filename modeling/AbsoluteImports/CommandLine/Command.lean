import AbsoluteImports.CommandLine.Flag

/-!
# Commands

The commands of the program, what they are called, the flags they know and their help texts.
-/

namespace AbsoluteImports.CommandLine

def programName : String := "pyimports"

/-- A command; `program` stands for the program without one. -/
inductive Command where
  | program
  | check
  | completion
  | convert
  | help
  | version
  deriving DecidableEq, Repr

namespace Command

def name : Command → String
  | program => programName
  | check => "check"
  | completion => "completion"
  | convert => "convert"
  | help => "help"
  | version => "version"

def path : Command → String
  | program => programName
  | c => programName ++ " " ++ c.name

def listed : List Command := [check, completion, convert, help, version]

/-- The commands that are proposed for a word that is no command, in order. -/
def proposed : List Command := [convert, check, version, completion]

def ofName? (word : Text) : Option Command := listed.find? fun c => c.name.toList = word

/-! ### Flags -/

def commonFlags : List Flag := [.config, .debug]

def ownFlags : Command → List Flag
  | program | completion | help => [.help]
  | convert => [.dryRun, .exclude, .help, .workers]
  | check => [.exclude, .help, .workers]
  | version => [.help, .json]

def flags (c : Command) : List Flag := commonFlags ++ c.ownFlags

/-! ### Help -/

def short : Command → String
  | program => "Rewrite relative Python imports into absolute imports"
  | check => "Report relative imports that convert would rewrite"
  | completion => "Generate the autocompletion script for the specified shell"
  | convert => "Rewrite relative imports into absolute imports"
  | help => "Help about any command"
  | version => "Print version information"

def long : Command → String
  | program =>
    "pyimports turns \"from .module import name\" into \"from <package>.module import name\"\n" ++
    "across a Python package, line by line, leaving everything else untouched."
  | check =>
    "Check runs convert without writing any file. It fails when a file would be\n" ++
    "rewritten or could not be read, which makes it usable as a CI gate."
  | completion =>
    "Generate the autocompletion script for pyimports for the specified shell.\n" ++
    "See each sub-command's help for details on how to use the generated script.\n"
  | convert =>
    "Convert rewrites single-line relative imports in every .py file below each\n" ++
    "package directory:\n\n" ++
    "  from .helpers import foo   ->  from <package>.helpers import foo\n" ++
    "  from . import bar          ->  from <package> import bar\n\n" ++
    "<package> is the directory's name. Directories without an __init__.py are\n" ++
    "skipped. Imports with two or more leading dots and multi-line imports are left\n" ++
    "untouched. Files without changes are never written.\n\n" ++
    "Directories default to the config file's \"directories\", or \".\"."
  | help =>
    "Help provides help for any command in the application.\n" ++
    "Simply type pyimports help [path to command] for full details."
  | version => short version

def operands : Command → String
  | program | completion => " [command]"
  | check | convert => " [directory...] [flags]"
  | help => " [command] [flags]"
  | version => " [flags]"

def subcommands : Command → List (String × String)
  | program => listed.map fun c => (c.name, c.short)
  | completion => ["bash", "fish", "powershell", "zsh"].map fun shell =>
    (shell, "Generate the autocompletion script for " ++ shell)
  | _ => []

def nameWidth : Nat := 11

/-- A part of a help text with a title, left out when it is empty. -/
def titled (title : String) (body : Text) : Text :=
  if body.isEmpty then [] else '\n' :: title.toList ++ ":\n".toList ++ body

def usageWith (own : List Flag) (c : Command) : Text :=
  let below := c.subcommands.flatMap fun (name, does) =>
    "  ".toList ++ Text.padRight nameWidth name.toList ++ ' ' :: does.toList ++ ['\n']
  let (direct, inherited) := if c = program then (commonFlags ++ own, []) else (own, commonFlags)
  "Usage:\n  ".toList ++ c.path.toList ++ c.operands.toList ++ ['\n'] ++
    titled "Available Commands" below ++
    titled "Flags" (Flag.helpLines c.name direct) ++
    titled "Global Flags" (Flag.helpLines c.name inherited) ++
    (if below.isEmpty then []
      else
        ("\nUse \"" ++ c.path ++ " [command] --help\" " ++
          "for more information about a command.\n").toList)

def helpText (c : Command) : Text :=
  Text.trimRight c.long.toList ++ "\n\n".toList ++ usageWith c.ownFlags c

def unknownTopic (words : List Text) : Text :=
  let shown := words.map fun w => (Text.backQuoted w).toList
  "Unknown help topic [".toList ++ Text.joinWith ' ' shown ++ "]\n".toList ++ usageWith [] program

end Command

end AbsoluteImports.CommandLine
