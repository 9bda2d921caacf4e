import AbsoluteImports.Text.Utf8

/-!
# UTF-16

A text as a list of 16-bit units, and the units as pairs of bytes in either order.
Reading never fails: a unit that is part of no pair, and a last odd byte, give a
replacement character.
-/

namespace AbsoluteImports.Utf16

/-- Which byte of a unit comes first. -/
inductive Order where
  | little
  | big
  deriving DecidableEq, Repr

/-! ### Units and characters -/

def isSurrogate (u : UInt16) : Bool := 0xD800 ≤ u.toNat && u.toNat < 0xE000

def isHigh (u : UInt16) : Bool := 0xD800 ≤ u.toNat && u.toNat < 0xDC00

def isLow (u : UInt16) : Bool := 0xDC00 ≤ u.toNat && u.toNat < 0xE000

def encodeChar (c : Char) : List UInt16 :=
  let n := c.toNat
  if n < 0x10000 then [n.toUInt16]
  else [(0xD800 + (n - 0x10000) / 0x400).toUInt16, (0xDC00 + (n - 0x10000) % 0x400).toUInt16]

def encodeUnits (s : Text) : List UInt16 := s.flatMap encodeChar

/-- The character of a unit that is not part of a pair. -/
def single (u : UInt16) : Char :=
  if isSurrogate u then Utf8.replacement else Char.ofNat u.toNat

/-- The character of a surrogate followed by a closing unit: two closing units make
one replacement character. -/
def paired (u v : UInt16) : Char :=
  if isHigh u then Char.ofNat (0x10000 + (u.toNat - 0xD800) * 0x400 + (v.toNat - 0xDC00))
  else Utf8.replacement

def decodeUnits : List UInt16 → Text
  | [] => []
  | [u] => [single u]
  | u :: v :: r =>
    if isSurrogate u && isLow v then paired u v :: decodeUnits r
    else single u :: decodeUnits (v :: r)

/-! ### Units and bytes -/

def unitBytes (o : Order) (u : UInt16) : Bytes :=
  match o with
  | .little => [(u.toNat % 256).toUInt8, (u.toNat / 256).toUInt8]
  | .big => [(u.toNat / 256).toUInt8, (u.toNat % 256).toUInt8]

def unitOf (o : Order) (a b : UInt8) : UInt16 :=
  match o with
  | .little => (a.toNat + 256 * b.toNat).toUInt16
  | .big => (256 * a.toNat + b.toNat).toUInt16

/-- The units of a byte sequence, and whether one byte is left over. -/
def units (o : Order) : Bytes → List UInt16 × Bool
  | [] => ([], false)
  | [_] => ([], true)
  | a :: b :: r => let (us, odd) := units o r; (unitOf o a b :: us, odd)

def encode (o : Order) (s : Text) : Bytes := (encodeUnits s).flatMap (unitBytes o)

def decode (o : Order) (bs : Bytes) : Text :=
  let (us, odd) := units o bs
  decodeUnits us ++ (if odd then [Utf8.replacement] else [])

end AbsoluteImports.Utf16
