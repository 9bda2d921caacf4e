import AbsoluteImports.Config.Json
import AbsoluteImports.Encoding
import AbsoluteImports.Text.Decimal
import AbsoluteImports.Yaml.Node

/-!
# Configurations as YAML

A mapping with the fields of a configuration. Every other name is refused, and so is a name
that occurs twice. A value that is left out or null leaves its field as it is.
-/

namespace AbsoluteImports.Config

/-! ### What plain scalars stand for -/

def isNull (s : Text) : Bool :=
  s.isEmpty || [
    "~", "null", "Null", "NULL"].any fun w => w.toList == s

def plainBool? (s : Text) : Option Bool :=
  if ["true", "True", "TRUE"].any fun w => w.toList == s then some true
  else if ["false", "False", "FALSE"].any fun w => w.toList == s then some false
  else none

def answer? (s : Text) : Option Bool :=
  let isOne := fun (words : List String) => words.any fun w => w.toList == s
  if isOne ["y", "Y", "yes", "Yes", "YES", "on", "On", "ON"] then some true
  else if isOne ["n", "N", "no", "No", "NO", "off", "Off", "OFF"] then some false
  else none

/-- A whole number in the base that its spelling shows: `0x`, `0o`, `0b`, a leading zero for
base eight, and ten otherwise. -/
def basedNat? : Text → Option Nat
  | '0' :: 'x' :: r | '0' :: 'X' :: r => Text.digits? 16 r
  | '0' :: 'o' :: r | '0' :: 'O' :: r => Text.digits? 8 r
  | '0' :: 'b' :: r | '0' :: 'B' :: r => Text.digits? 2 r
  | ['0'] => some 0
  | '0' :: r => Text.digits? 8 r
  | s => Text.digits? 10 s

/-- A whole number with an optional sign, in the base that its spelling shows. -/
def basedInt? (s : Text) : Option Int :=
  let (negative, r) := Decimal.takeSign s
  (basedNat? r).map fun n => if negative then -(n : Int) else n

def signedInt? (base : Nat) (s : Text) : Option Int :=
  let (negative, r) := Decimal.takeSign s
  (Text.digits? base r).map fun n => if negative then -(n : Int) else n

/-- A number in the form of a float: a point needs a digit on one side. -/
def plainFloat? (s : Text) : Option Decimal :=
  if s.all fun c => c.isDigit || c == '.' || c == '-' || c == '+' || c == 'e' || c == 'E' then
    Decimal.ofText? s
  else none

/-- The least number of a field, which stands also for the numbers that a float can hold and
a field cannot. -/
def leastInt : Int := -9223372036854775808

/-- The number of a field that a float gives: cut to a whole number, unless it is too large. -/
def ofWhole? (n : Int) : Option Int :=
  if n ≤ 9223372036854775808 then some (if inRange n then n else leastInt) else none

def plainNumber? (s : Text) : Option Int :=
  let bare := s.filter (· != '_')
  let float := (plainFloat? bare).bind fun d => d.truncatedDouble?.bind ofWhole?
  match s with
  | [] => none
  | '.' :: _ => ((plainFloat? s).bind (·.truncatedDouble?)).bind ofWhole?
  | c :: _ =>
    if ["-.inf", "-.Inf", "-.INF"].any fun w => w.toList == s then some leastInt
    else if !(c.isDigit || c == '+' || c == '-') then none
    else
      match basedInt? bare with
      | some n =>
        if inRange n then some n
        else if 0 ≤ n && n < 18446744073709551616 && c != '+' then none
        else float
      | none =>
        match float, bare with
        | some n, _ => some n
        | none, '0' :: 'b' :: r => (signedInt? 2 r).filter inRange
        | none, '-' :: '0' :: 'b' :: r => (signedInt? 2 ('-' :: r)).filter inRange
        | none, '0' :: 'o' :: r => (signedInt? 8 r).filter inRange
        | none, '-' :: '0' :: 'o' :: r => (signedInt? 8 ('-' :: r)).filter inRange
        | none, _ => none

/-! ### Fields -/

/-- The text of an item of a list; nothing for an item that is left out. -/
def yamlItem? : Yaml.Node → Option (Option Text)
  | .scalar t plain => some (if plain && isNull t then none else some t)
  | _ => none

def yamlTexts? : List Yaml.Node → Option (List Text)
  | [] => some []
  | n :: ns => do
    let item ← yamlItem? n
    let rest ← yamlTexts? ns
    some (item.toList ++ rest)

def isMissing : Yaml.Node → Bool
  | .scalar t plain => plain && isNull t
  | _ => false

def yamlField? (c : Config) (f : Field) (v : Yaml.Node) : Option Config :=
  if isMissing v then some c
  else
    match f, v with
    | .directories, .list ns => (yamlTexts? ns).map fun ts => { c with directories := ts }
    | .exclude, .list ns => (yamlTexts? ns).map fun ts => { c with exclude := ts }
    | .workers, .scalar t true => (plainNumber? t).map fun n => { c with workers := n }
    | .dryRun, .scalar t plain =>
      ((if plain then plainBool? t else none) <|> answer? t).map fun b => { c with dryRun := b }
    | _, _ => none

/-- Reads one pair of a mapping. A name that stands for nothing is passed over. -/
def yamlPair? (c : Config) : Yaml.Node × Yaml.Node → Option Config
  | (.scalar name plain, v) =>
    if plain && isNull name then some c
    else (Field.ofName? name).bind fun f => yamlField? c f v
  | _ => none

/-- Whether no scalar occurs twice among the names of a mapping. -/
def namesDiffer : List (Yaml.Node × Yaml.Node) → Bool
  | [] => true
  | (.scalar name _, _) :: ps =>
    ps.all (fun p => match p.1 with | .scalar other _ => other != name | _ => true) &&
      namesDiffer ps
  | _ :: ps => namesDiffer ps

def ofYaml? : Yaml.Node → Option Config
  | .map pairs => if namesDiffer pairs then pairs.foldlM yamlPair? empty else none
  | n => if isMissing n then some empty else none

/-- The text of the content of a file: well formed, and without characters that may not occur. -/
def yamlText? (content : Bytes) : Option Text :=
  match Encoding.decode content with
  | .ok (text, e) =>
    if Encoding.encode text e = content && text.all Yaml.isAllowed then some text else none
  | .error _ => none

def readYaml? (content : Bytes) : Option Config := do
  let text ← yamlText? content
  let root ← Yaml.firstDocument? text
  ofYaml? root

end AbsoluteImports.Config
