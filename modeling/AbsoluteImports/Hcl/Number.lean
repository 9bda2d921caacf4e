import AbsoluteImports.Text.Decimal

/-!
# HCL numbers

Binary floating-point numbers of 512 digits, and the two infinities. Every operation gives the
exact result rounded to the nearest number, ties to the even one. The text of a number is the
shortest decimal that reads back as the same number.
-/

namespace AbsoluteImports.Hcl

/-- A number `m · 2 ^ e`, or an infinity. -/
inductive Number where
  | finite (m : Int) (e : Int)
  | infinite (negative : Bool)
  deriving DecidableEq, Repr

namespace Number

def precision : Nat := 512

def zero : Number := .finite 0 0

/-- The fraction `a / b · 2 ^ e`, rounded. -/
def ofFraction (negative : Bool) (a b : Nat) (e : Int) : Number :=
  let (m, k) := Binary.round precision a b
  if m = 0 then zero else .finite (if negative then -(m : Int) else m) (e + k)

/-- The number `m · 2 ^ e`, rounded. -/
def ofScaled (m : Int) (e : Int) : Number := ofFraction (m < 0) m.natAbs 1 e

/-- The greatest exponent of ten that is computed with; beyond it a number is infinite, or
zero. -/
def exponentLimit : Int := 100000

def ofDecimal (d : Decimal) : Number :=
  if d.digits = 0 then zero
  else if exponentLimit < d.exponent then .infinite d.negative
  else if d.exponent < -exponentLimit then zero
  else if 0 ≤ d.exponent then ofFraction d.negative (d.digits * Nat.pow 10 d.exponent.toNat) 1 0
  else ofFraction d.negative d.digits (Nat.pow 10 (-d.exponent).toNat) 0

def ofText? (s : Text) : Option Number :=
  if ["Inf", "+Inf", "inf", "+inf"].any fun w => w.toList == s then some (.infinite false)
  else if ["-Inf", "-inf"].any fun w => w.toList == s then some (.infinite true)
  else (Decimal.ofText? s).map ofDecimal

/-! ### Arithmetic -/

/-- Two numbers on a common scale. -/
def aligned (m e n f : Int) : Int × Int × Int :=
  let k := min e f
  (m * Nat.pow 2 (e - k).toNat, n * Nat.pow 2 (f - k).toNat, k)

def neg : Number → Number
  | finite m e => finite (-m) e
  | infinite s => infinite !s

/-- The sum; opposite infinities have none. -/
def add? : Number → Number → Option Number
  | finite m e, finite n f => let (a, b, k) := aligned m e n f; some (ofScaled (a + b) k)
  | infinite s, infinite t => if s = t then some (infinite s) else none
  | infinite s, _ => some (infinite s)
  | _, infinite t => some (infinite t)

def sub? (x y : Number) : Option Number := add? x y.neg

/-- The product; zero and an infinity have none. -/
def mul? : Number → Number → Option Number
  | finite m e, finite n f => some (ofScaled (m * n) (e + f))
  | finite m _, infinite t => if m = 0 then none else some (infinite ((m < 0) != t))
  | infinite s, finite n _ => if n = 0 then none else some (infinite (s != (n < 0)))
  | infinite s, infinite t => some (infinite (s != t))

/-- The quotient; two zeros, and two infinities, have none. -/
def div? : Number → Number → Option Number
  | finite m e, finite n f =>
    if n = 0 then (if m = 0 then none else some (infinite (m < 0)))
    else some (ofFraction ((m < 0) != (n < 0)) m.natAbs n.natAbs (e - f))
  | finite _ _, infinite _ => some zero
  | infinite s, finite n _ => some (infinite (s != (n < 0)))
  | infinite _, infinite _ => none

/-- The whole part, toward zero. -/
def truncate (m e : Int) : Int :=
  if 0 ≤ e then m * Nat.pow 2 e.toNat else Int.tdiv m (Nat.pow 2 (-e).toNat)

/-- What is left after taking the divisor off as often as it goes; division by zero leaves
the number itself. -/
def mod? : Number → Number → Option Number
  | finite m e, finite n f =>
    if n = 0 then some (finite m e)
    else
      match div? (finite m e) (finite n f) with
      | some (.finite q k) => do
        let times ← mul? (finite n f) (ofScaled (truncate q k) 0)
        sub? (finite m e) times
      | _ => none
  | x, y => mul? x y

def lt : Number → Number → Bool
  | finite m e, finite n f => let (a, b, _) := aligned m e n f; a < b
  | infinite s, infinite t => s && !t
  | infinite s, _ => s
  | _, infinite t => !t

def same (x y : Number) : Bool := !lt x y && !lt y x

def toInt? : Number → Option Int
  | finite m e =>
    if 0 ≤ e then some (m * Nat.pow 2 e.toNat)
    else if m % Nat.pow 2 (-e).toNat = 0 then some (m / Nat.pow 2 (-e).toNat)
    else none
  | infinite _ => none

/-! ### Text -/

/-- The digits of `q · 10 ^ e`, without zeros that say nothing. -/
def positional (q : Nat) (e : Int) : Text :=
  let all := Nat.toDigits 10 q
  let kept := (all.reverse.dropWhile (· == '0')).reverse
  let point : Int := all.length + e
  if q = 0 then ['0']
  else if point ≤ 0 then '0' :: '.' :: List.replicate (-point).toNat '0' ++ kept
  else if kept.length ≤ point then kept ++ List.replicate (point.toNat - kept.length) '0'
  else kept.take point.toNat ++ '.' :: kept.drop point.toNat

/-- The number of decimal digits before the point of `a / b`; below one, minus the number of
zeros behind the point. -/
def magnitude (a b : Nat) : Int :=
  if b ≤ a then (Nat.toDigits 10 (a / b)).length
  else
    let n := (Nat.toDigits 10 (b / a)).length
    if b ≤ a * Nat.pow 10 (n - 1) then 2 - (n : Int) else 1 - (n : Int)

/-- Looks for the fewest digits, from a number of them on, with which a decimal lies between
`low / b` and `high / b`; of two it takes the one nearer to `a / b`, of two as near the even
one. -/
def shortest (low a high b : Nat) (ends : Bool) (size : Int) : (fuel digits : Nat) → Nat × Int
  | 0, _ => (0, 0)
  | fuel + 1, digits =>
    let e := size - digits
    let up := Nat.pow 10 (-e).toNat
    let unit := b * Nat.pow 10 e.toNat
    let q := a * up / unit
    let inside := fun (x : Nat) =>
      if ends then low * up ≤ x * unit && x * unit ≤ high * up
      else low * up < x * unit && x * unit < high * up
    match inside q, inside (q + 1) with
    | true, true => (Binary.roundDiv (a * up) unit, e)
    | true, false => (q, e)
    | false, true => (q + 1, e)
    | false, false => shortest low a high b ends size fuel (digits + 1)

def text : Number → Text
  | infinite s => if s then "-Inf".toList else "+Inf".toList
  | finite m e =>
    if m = 0 then ['0']
    else
      let shift := precision - Binary.bits m.natAbs
      let full := 2 * (m.natAbs * Nat.pow 2 shift)
      let k : Int := e - shift - 1
      let scale := Nat.pow 2 k.toNat
      let b := Nat.pow 2 (-k).toNat
      let (q, x) := shortest ((full - 1) * scale) (full * scale) ((full + 1) * scale) b
        (full / 2 % 2 == 0) (magnitude (full * scale) b) 200 1
      (if m < 0 then ['-'] else []) ++ positional q x

end Number

end AbsoluteImports.Hcl
