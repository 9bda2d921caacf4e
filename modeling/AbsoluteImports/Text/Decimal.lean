import AbsoluteImports.Text.Basic

/-!
# Decimal numbers

The spelling of a number with a point and an exponent, its exact value, and its value after
rounding to a fixed number of binary digits.
-/

namespace AbsoluteImports

/-- A number `digits · 10 ^ exponent`, with a sign. -/
structure Decimal where
  negative : Bool
  digits : Nat
  exponent : Int
  deriving DecidableEq, Repr

namespace Decimal

def takeSign : Text → Bool × Text
  | '-' :: r => (true, r)
  | '+' :: r => (false, r)
  | s => (false, s)

/-- The exponent that fills a text, introduced by `e`; zero when the text is empty. -/
def exponent? : Text → Option Int
  | [] => some 0
  | c :: r =>
    if c == 'e' || c == 'E' then
      let (negative, ds) := takeSign r
      (Text.digits? 10 ds).map fun n => if negative then -(n : Int) else n
    else none

/-- The number that a text spells: an optional sign, digits with an optional point, of which
there must be one at least, and an optional exponent. -/
def ofText? (s : Text) : Option Decimal :=
  let (negative, s) := takeSign s
  let whole := s.takeWhile Char.isDigit
  let rest := s.dropWhile Char.isDigit
  let (fraction, tail) := match rest with
    | '.' :: r => (r.takeWhile Char.isDigit, r.dropWhile Char.isDigit)
    | r => ([], r)
  if whole.isEmpty && fraction.isEmpty then none
  else
    (exponent? tail).map fun e =>
      ⟨negative, Text.decimal (whole ++ fraction), e - fraction.length⟩

end Decimal

/-! ### Rounding -/

namespace Binary

/-- The quotient rounded to the nearest number; a tie goes to the even one. -/
def roundDiv (a b : Nat) : Nat :=
  let q := a / b
  let r := a % b
  if 2 * r < b then q else if b < 2 * r then q + 1 else q + q % 2

def bits (n : Nat) : Nat := if n = 0 then 0 else n.log2 + 1

/-- The fraction `a / b` as `m · 2 ^ e` with `m` of at most `precision` binary digits. -/
def round (precision a b : Nat) : Nat × Int :=
  if a = 0 ∨ b = 0 then (0, 0)
  else
    -- With this scale the quotient has `precision` or `precision + 1` binary digits.
    let scale : Int := precision - ((bits a : Int) - bits b)
    let quotient := fun (k : Int) =>
      if 0 ≤ k then (a * Nat.pow 2 k.toNat, b) else (a, b * Nat.pow 2 (-k).toNat)
    let (a', b') := quotient scale
    let (a', b', scale) :=
      if bits (a' / b') > precision then
        let (x, y) := quotient (scale - 1)
        (x, y, scale - 1)
      else (a', b', scale)
    (roundDiv a' b', -scale)

end Binary

/-- The whole part of a decimal number after rounding to a double, or nothing when it is too
large for one. -/
def Decimal.truncatedDouble? (d : Decimal) : Option Int :=
  let width := (Nat.toDigits 10 d.digits).length
  if d.digits = 0 then some 0
  else if 400 < d.exponent + width then none
  else if d.exponent + width < -400 then some 0
  else
    let (a, b) := if 0 ≤ d.exponent then (d.digits * Nat.pow 10 d.exponent.toNat, 1)
      else (d.digits, Nat.pow 10 (-d.exponent).toNat)
    let (m, e) := Binary.round 53 a b
    let whole := if 0 ≤ e then m * Nat.pow 2 e.toNat else m / Nat.pow 2 (-e).toNat
    if Nat.pow 2 1024 ≤ whole then none
    else some (if d.negative then -(whole : Int) else whole)

end AbsoluteImports
