import AbsoluteImports.Config.Basic
import AbsoluteImports.Text.JsonValue

/-!
# Configurations as JSON

An object with the fields of a configuration. Names are compared without regard to case, a
field may be repeated, and every other name is refused. What follows the first value is not
looked at.
-/

namespace AbsoluteImports.Config

/-- The form of a character for the comparison of names: small letters stand for capitals,
for the Kelvin sign and for the long s. -/
def foldChar (c : Char) : Char :=
  if c = Char.ofNat 0x212A then 'k' else if c = Char.ofNat 0x17F then 's' else c.toLower

/-- A field of a configuration. -/
inductive Field where
  | directories
  | exclude
  | workers
  | dryRun
  deriving DecidableEq, Repr

def Field.ofName? (name : Text) : Option Field :=
  if name = "directories".toList then some .directories
  else if name = "exclude".toList then some .exclude
  else if name = "workers".toList then some .workers
  else if name = "dry_run".toList then some .dryRun
  else none

/-- A list of texts that was read. A shorter list read later does not clear the slots behind
its end, and a missing item takes what its slot holds. -/
structure Slots where
  slots : List Text
  length : Nat

def Slots.none : Slots := ⟨[], 0⟩

def Slots.texts (s : Slots) : List Text := s.slots.take s.length

def fillSlots : List Text → List JsonValue → Option (List Text)
  | slots, [] => some slots
  | slots, .null :: vs => (fillSlots (slots.drop 1) vs).map (slots.headD [] :: ·)
  | slots, .string t :: vs => (fillSlots (slots.drop 1) vs).map (t :: ·)
  | _, _ :: _ => Option.none

/-- The list after a value was read into it. -/
def Slots.read? (s : Slots) : JsonValue → Option Slots
  | .null => some .none
  | .array [] => some .none
  | .array vs => (fillSlots s.slots vs).map (⟨·, vs.length⟩)
  | _ => Option.none

/-- The least and the greatest number of a field. -/
def inRange (n : Int) : Bool := -9223372036854775808 ≤ n && n ≤ 9223372036854775807

/-- The number of plain decimal digits, with a sign or without. -/
def plainInt? : Text → Option Int
  | '-' :: ds => (Text.digits? 10 ds).map fun n => -n
  | ds => (Text.digits? 10 ds).map fun n => n

/-- What was read of an object so far. -/
structure JsonFields where
  directories : Slots
  exclude : Slots
  workers : Int
  dryRun : Bool

def JsonFields.member? (f : JsonFields) (name : Text) (v : JsonValue) : Option JsonFields := do
  match ← Field.ofName? (name.map foldChar), v with
  | .directories, v => some { f with directories := ← f.directories.read? v }
  | .exclude, v => some { f with exclude := ← f.exclude.read? v }
  | .workers, .null => some f
  | .workers, .number spelling =>
    let n ← plainInt? spelling
    if inRange n then some { f with workers := n } else none
  | .dryRun, .null => some f
  | .dryRun, .bool b => some { f with dryRun := b }
  | _, _ => none

def ofJson? : JsonValue → Option Config
  | .null => some empty
  | .object members => do
    let unread : JsonFields := ⟨.none, .none, 0, false⟩
    let f ← members.foldlM (fun f (name, v) => f.member? name v) unread
    some { empty with
      directories := f.directories.texts, exclude := f.exclude.texts
      workers := f.workers, dryRun := f.dryRun }
  | _ => none

def readJson? (content : Bytes) : Option Config :=
  match JsonValue.read? (Utf8.decodeLenient content) with
  | some (v, _) => ofJson? v
  | none => none

end AbsoluteImports.Config
