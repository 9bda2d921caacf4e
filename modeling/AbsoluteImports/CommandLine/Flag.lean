import AbsoluteImports.Text.Integer
import AbsoluteImports.Text.Quoted
import AbsoluteImports.Text.Utf8

/-!
# Flags

The flags of the command line, how they are written, and how help shows them. A flag has a name
after two dashes and may have a letter after one; letters can stand together in a group.
-/

namespace AbsoluteImports.CommandLine

inductive Flag where
  | config
  | debug
  | dryRun
  | exclude
  | help
  | json
  | workers
  deriving DecidableEq, Repr

namespace Flag

def name : Flag → String
  | config => "config"
  | debug => "debug"
  | dryRun => "dry-run"
  | exclude => "exclude"
  | help => "help"
  | json => "json"
  | workers => "workers"

/-- The letter after one dash. -/
def letter? : Flag → Option Char
  | config => some 'c'
  | debug => some 'd'
  | exclude => some 'x'
  | help => some 'h'
  | workers => some 'w'
  | dryRun | json => none

/-- Whether the flag stands alone; every other flag needs a value. -/
def isSwitch : Flag → Bool
  | debug | dryRun | help | json => true
  | config | exclude | workers => false

def ofName? (fs : List Flag) (name : Text) : Option Flag := fs.find? fun f => f.name.toList = name

def ofLetter? (fs : List Flag) (c : Char) : Option Flag := fs.find? fun f => f.letter? = some c

/-! ### In help texts -/

/-- What help calls the value of a flag. -/
def valueName : Flag → String
  | config => " string"
  | exclude => " stringArray"
  | workers => " int"
  | _ => ""

/-- The file that settings are read from when no other is named. -/
def defaultConfig : String := ".pyimports.hcl"

def purpose (command : String) : Flag → String
  | config => "config file path (.hcl, .yaml, .yml or .json) (default \"" ++ defaultConfig ++ "\")"
  | debug => "enable debug logging"
  | dryRun => "report changes without writing files"
  | exclude => "glob of files to skip, relative to each directory (repeatable)"
  | help => "help for " ++ command
  | json => "print as JSON"
  | workers => "number of files processed at once (default 1)"

def spelling (f : Flag) : Text :=
  (match f.letter? with
    | some c => "  -".toList ++ c :: ", --".toList
    | none => "      --".toList) ++ f.name.toList ++ f.valueName.toList

def helpLines (command : String) (fs : List Flag) : Text :=
  let width := (fs.map fun f => f.spelling.length).foldl max 0
  fs.flatMap fun f =>
    Text.padRight width f.spelling ++ "   ".toList ++ (f.purpose command).toList ++ ['\n']

end Flag

/-! ### Values -/

/-- Why the value of a flag is refused. -/
inductive ValueError where
  | notInteger (e : Text.IntegerError)
  | notBool
  deriving DecidableEq, Repr

def ValueError.message (value : Text) : ValueError → String
  | notInteger e => "strconv.ParseInt: parsing " ++ Text.quoted value ++ ": " ++ e.message
  | notBool => "strconv.ParseBool: parsing " ++ Text.quoted value ++ ": invalid syntax"

def readBool (value : Text) : Except ValueError Bool :=
  if ["1", "t", "T", "TRUE", "true", "True"].any fun w => w.toList == value then .ok true
  else if ["0", "f", "F", "FALSE", "false", "False"].any fun w => w.toList == value then .ok false
  else .error .notBool

/-- What a command line gives to a command. -/
structure Given where
  /-- The file of the settings, where one was named. -/
  config : Option Text
  debug : Bool
  dryRun : Bool
  exclude : List Text
  help : Bool
  json : Bool
  /-- The number of workers, where one was given. -/
  workers : Option Int
  /-- What is not a flag. -/
  arguments : List Text
  deriving DecidableEq, Repr

namespace Given

def nothing : Given := ⟨none, false, false, [], false, false, none, []⟩

/-- Gives a value to a flag. Patterns of files to leave out are gathered; of every other flag
the last value counts. -/
def set (g : Given) (f : Flag) (value : Text) : Except ValueError Given := do
  match f with
  | .config => return { g with config := some value }
  | .debug => return { g with debug := ← readBool value }
  | .dryRun => return { g with dryRun := ← readBool value }
  | .exclude => return { g with exclude := g.exclude ++ [value] }
  | .help => return { g with help := ← readBool value }
  | .json => return { g with json := ← readBool value }
  | .workers =>
    match Text.readInteger value with
    | .ok n => return { g with workers := some n }
    | .error e => throw (.notInteger e)

end Given

/-! ### Reading -/

/-- Why flags could not be read. -/
inductive FlagError where
  | malformed (word : Text)
  | unknown (name : Text)
  /-- An unknown letter in front of the rest of its group. -/
  | unknownLetter (letter : Char) (group : Text)
  | noValue (word : Text)
  | noLetterValue (letter : Char)
  | invalid (f : Flag) (value : Text) (e : ValueError)
  deriving DecidableEq, Repr

/-- The letter that a message shows for a character: the one of its first byte. -/
def shownLetter (c : Char) : String :=
  Text.quotedAlone (Char.ofNat (((Utf8.encodeChar c).headD 0).toNat))

def Flag.fullName (f : Flag) : Text :=
  (match f.letter? with
    | some c => '-' :: c :: ", ".toList
    | none => []) ++ "--".toList ++ f.name.toList

def FlagError.message : FlagError → String
  | malformed word => "bad flag syntax: " ++ String.ofList word
  | unknown name => "unknown flag: --" ++ String.ofList name
  | unknownLetter c group =>
    "unknown shorthand flag: " ++ shownLetter c ++ " in -" ++ String.ofList group
  | noValue word => "flag needs an argument: " ++ String.ofList word
  | noLetterValue c => "flag needs an argument: " ++ shownLetter c ++ " in -" ++ String.ofList [c]
  | invalid f value e =>
    "invalid argument " ++ Text.quoted value ++ " for " ++ Text.quoted f.fullName ++ " flag: " ++
      e.message value

/-- Gives a value to a flag, with the error of a command line. -/
def Given.put (g : Given) (f : Flag) (value : Text) : Except FlagError Given :=
  match g.set f value with
  | .ok g => .ok g
  | .error e => .error (.invalid f value e)

/-- Reads a group of letters. The last flag of it may be left without its value, which is then
the next word. -/
def readGroup (fs : List Flag) : Given → Text → Except FlagError (Given × Option (Flag × Char))
  | g, [] => .ok (g, none)
  | g, c :: r =>
    -- A group of this form is meant for test runs and passed over.
    if Text.startsWith "test.".toList (c :: r) then .ok (g, none)
    else
      match Flag.ofLetter? fs c, r with
      | none, _ => .error (.unknownLetter c (c :: r))
      | some f, '=' :: v :: vs => do return (← g.put f (v :: vs), none)
      | some f, r =>
        if f.isSwitch then do readGroup fs (← g.put f "true".toList) r
        else if r.isEmpty then .ok (g, some (f, c))
        else do return (← g.put f r, none)

/-- The name of a long flag and its value, where one is written behind an equals sign. -/
def splitLong (s : Text) : Text × Option Text :=
  let name := s.takeWhile (· != '=')
  match s.dropWhile (· != '=') with
  | _ :: value => (name, some value)
  | [] => (name, none)

/-- Reads a long flag: what is given, or the flag whose value is the next word. -/
def readLong (fs : List Flag) (g : Given) (s : Text) : Except FlagError (Given × Option Flag) :=
  let (name, value) := splitLong s
  if name.isEmpty || name.head? == some '-' then .error (.malformed ("--".toList ++ s))
  else
    match Flag.ofName? fs name, value with
    | none, _ => .error (.unknown name)
    | some f, some v => do return (← g.put f v, none)
    | some f, none =>
      if f.isSwitch then do return (← g.put f "true".toList, none) else .ok (g, some f)

/-- Reads the words of a command line. Flags and arguments may be mixed; two dashes alone end
the flags, and one dash is an argument. -/
def readWords (fs : List Flag) (g : Given) : List Text → Except FlagError Given
  | [] => .ok g
  | word :: rest =>
    match word with
    | '-' :: '-' :: [] => .ok { g with arguments := g.arguments ++ rest }
    | '-' :: '-' :: s => do
      match ← readLong fs g s, rest with
      | (g, none), rest => readWords fs g rest
      | (_, some _), [] => .error (.noValue word)
      | (g, some f), value :: rest => do readWords fs (← g.put f value) rest
    | '-' :: c :: s => do
      match ← readGroup fs g (c :: s), rest with
      | (g, none), rest => readWords fs g rest
      | (_, some (_, letter)), [] => .error (.noLetterValue letter)
      | (g, some (f, _)), value :: rest => do readWords fs (← g.put f value) rest
    | _ => readWords fs { g with arguments := g.arguments ++ [word] } rest

end AbsoluteImports.CommandLine
