import AbsoluteImports.Text.Basic

/-!
# Whole numbers in a text

The spelling of a whole number of 64 bits: an optional sign, the mark of a base, and digits.
The marks are `0b`, `0o` and `0x`; a zero alone in front means base eight. An underscore may
stand between two digits, or between the mark and a digit.
-/

namespace AbsoluteImports.Text

/-- Why a text is no whole number. -/
inductive IntegerError where
  | malformed
  | outOfRange
  deriving DecidableEq, Repr

def IntegerError.message : IntegerError → String
  | malformed => "invalid syntax"
  | outOfRange => "value out of range"

/-- The base that the front of a text marks, and what follows the mark. -/
def baseMark? : Text → Option (Nat × Text)
  | '0' :: c :: d :: r =>
    if c = 'b' || c = 'B' then some (2, d :: r)
    else if c = 'o' || c = 'O' then some (8, d :: r)
    else if c = 'x' || c = 'X' then some (16, d :: r)
    else some (8, c :: d :: r)
  | '0' :: r => some (8, r)
  | _ => none

/-- Whether every underscore stands behind a digit or a mark, and before a digit. -/
def underscoresFit : (afterDigit : Bool) → Text → Bool
  | _, [] => true
  | _, ['_'] => false
  | afterDigit, '_' :: r => afterDigit && underscoresFit false r
  | _, _ :: r => underscoresFit true r

/-- Reads one more digit of a number below `2 ^ 64`; an underscore is passed over. -/
def moreDigits (base n : Nat) (c : Char) : Except IntegerError Nat :=
  if c = '_' then .ok n
  else
    match digit? base c with
    | none => .error .malformed
    | some d => if Nat.pow 2 64 ≤ n * base + d then .error .outOfRange else .ok (n * base + d)

def readNatural (s : Text) : Except IntegerError Nat := do
  if s.isEmpty then throw .malformed
  let (base, ds) := (baseMark? s).getD (10, s)
  let n ← ds.foldlM (moreDigits base) 0
  if underscoresFit (baseMark? s).isSome ds then return n else throw .malformed

def readInteger (s : Text) : Except IntegerError Int := do
  let (negative, ds) := match s with
    | '-' :: r => (true, r)
    | '+' :: r => (false, r)
    | r => (false, r)
  let n ← readNatural ds
  if negative then
    if Nat.pow 2 63 < n then throw .outOfRange else return -(n : Int)
  else if Nat.pow 2 63 ≤ n then throw .outOfRange
  else return n

end AbsoluteImports.Text
