import AbsoluteImports.CommandLine.Command
import AbsoluteImports.Text.LowerCase

/-!
# Selection of a command

The first word that is neither a flag nor the value of one names the command. A word that names
none is answered with the commands that it may have been meant for.
-/

namespace AbsoluteImports.CommandLine

/-! ### Words that are not flags -/

/-- Whether a word is a flag whose value is the next word. A flag that is not known counts as
one; the help flag of the program is not known at this point. -/
def takesNext : Text → Bool
  | '-' :: '-' :: name =>
    !name.contains '=' && !(Flag.ofName? Command.commonFlags name).any Flag.isSwitch
  | ['-', c] =>
    c != '=' && c.toNat < 0x80 && !(Flag.ofLetter? Command.commonFlags c).any Flag.isSwitch
  | _ => false

/-- Two dashes, which end the flags. -/
def dashes : Text := ['-', '-']

/-- Whether a word is neither empty nor starts with a dash. -/
def isPlain (word : Text) : Bool := !word.isEmpty && word.head? != some '-'

/-- The words that are neither flags nor values of flags, up to two dashes. The last word is
never one behind a flag that needs a value. -/
def plainWords : List Text → List Text
  | [] => []
  | word :: rest =>
    if word = dashes then []
    else if takesNext word then
      match rest with
      | [] | [_] => []
      | _ :: rest => plainWords rest
    else if isPlain word then word :: plainWords rest
    else plainWords rest

/-- The words without the first plain one that is `name`. -/
def withoutFirst (name : Text) : List Text → List Text
  | [] => []
  | word :: rest =>
    if word = dashes then word :: rest
    else if takesNext word then
      match rest with
      | [] => [word]
      | value :: rest => word :: value :: withoutFirst name rest
    else if word = name then rest
    else word :: withoutFirst name rest

/-! ### Proposals -/

/-- The next row of the table of distances: `left` is the distance before the first place. -/
def distances (b : UInt8) (left : Nat) : Bytes → List Nat → List Nat
  | t :: ts, corner :: above :: row =>
    let here := min (min (left + 1) (above + 1)) (corner + if b = t then 0 else 1)
    here :: distances b here ts (above :: row)
  | _, _ => []

/-- The least number of bytes to insert, remove or replace that makes two texts equal. -/
def distance (s t : Bytes) : Nat :=
  let start := List.range (t.length + 1)
  let rows := s.foldl (fun row b => (row.headD 0 + 1) :: distances b (row.headD 0 + 1) t row) start
  rows.getLastD 0

/-- The greatest distance of a word from a command that is proposed for it. -/
def distanceLimit : Nat := 2

/-- Whether a command is proposed for a word: it is near, or starts with the word, without
regard to case. -/
def isNear (word : Text) (c : Command) : Bool :=
  let lower := Text.toLower word
  distance (Utf8.encode lower) (Utf8.encode c.name.toList) ≤ distanceLimit ||
    Text.startsWith lower c.name.toList

def proposals (word : Text) : List Command := Command.proposed.filter (isNear word)

/-! ### Selection -/

/-- The command of a command line and the words for it, or the word that names none. -/
def select (words : List Text) : Except Text (Command × List Text) :=
  match plainWords words with
  | [] => .ok (.program, words)
  | word :: _ =>
    match Command.ofName? word with
    | some c => .ok (c, withoutFirst word words)
    | none => .error word

end AbsoluteImports.CommandLine
