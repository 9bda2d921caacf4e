import AbsoluteImports.Text.Basic

/-!
# UTF-8

Characters and bytes by plain arithmetic. A character takes one to four bytes; the
strict reader refuses surrogates, longer forms than needed and values above
`0x10FFFF`, and the lenient reader puts a replacement character for each byte that
starts no character.
-/

namespace AbsoluteImports

/-- A sequence of bytes, such as the content of a file. -/
abbrev Bytes := List UInt8

namespace Utf8

/-! ### Writing -/

def encodeChar (c : Char) : Bytes :=
  let n := c.toNat
  if n < 0x80 then [n.toUInt8]
  else if n < 0x800 then [(0xC0 + n / 64).toUInt8, (0x80 + n % 64).toUInt8]
  else if n < 0x10000 then
    [(0xE0 + n / 4096).toUInt8, (0x80 + n / 64 % 64).toUInt8, (0x80 + n % 64).toUInt8]
  else
    [(0xF0 + n / 262144).toUInt8, (0x80 + n / 4096 % 64).toUInt8, (0x80 + n / 64 % 64).toUInt8,
      (0x80 + n % 64).toUInt8]

def encode (s : Text) : Bytes := s.flatMap encodeChar

/-! ### Reading -/

/-- Whether a byte continues a character, and may stand in none of its first places. -/
def isContinuation (b : UInt8) : Bool := 0x80 ≤ b.toNat && b.toNat < 0xC0

/-- The character of a number, if it is one and is not below the least number that
needs as many bytes. -/
def charFrom? (least n : Nat) : Option Char :=
  if h : n.isValidChar then if least ≤ n then some (Char.ofNatAux n h) else none else none

/-- The first character of a byte sequence and the number of bytes that follow its
first one, or nothing when no character starts here. -/
def next? : Bytes → Option (Char × Nat)
  | [] => none
  | a :: r =>
    let n := a.toNat
    if n < 0x80 then (charFrom? 0 n).map (·, 0)
    else if 0xC0 ≤ n && n < 0xE0 then
      match r with
      | b :: _ =>
        if isContinuation b then
          (charFrom? 0x80 ((n - 0xC0) * 64 + (b.toNat - 0x80))).map (·, 1)
        else none
      | _ => none
    else if 0xE0 ≤ n && n < 0xF0 then
      match r with
      | b :: c :: _ =>
        if isContinuation b && isContinuation c then
          (charFrom? 0x800 ((n - 0xE0) * 4096 + (b.toNat - 0x80) * 64 +
            (c.toNat - 0x80))).map (·, 2)
        else none
      | _ => none
    else if 0xF0 ≤ n && n < 0xF8 then
      match r with
      | b :: c :: d :: _ =>
        if isContinuation b && isContinuation c && isContinuation d then
          (charFrom? 0x10000 ((n - 0xF0) * 262144 + (b.toNat - 0x80) * 4096 +
            (c.toNat - 0x80) * 64 + (d.toNat - 0x80))).map (·, 3)
        else none
      | _ => none
    else none

def decode? (bs : Bytes) : Option Text :=
  match bs with
  | [] => some []
  | a :: r =>
    match next? (a :: r) with
    | some (c, k) => (decode? (r.drop k)).map (c :: ·)
    | none => none
termination_by bs.length
decreasing_by simp only [List.length_cons, List.length_drop]; omega

def replacement : Char := Char.ofNat 0xFFFD

/-- The text of a byte sequence, with a replacement character for each byte that
starts no character. -/
def decodeLenient (bs : Bytes) : Text :=
  match bs with
  | [] => []
  | a :: r =>
    match next? (a :: r) with
    | some (c, k) => c :: decodeLenient (r.drop k)
    | none => replacement :: decodeLenient r
termination_by bs.length
decreasing_by all_goals simp only [List.length_cons, List.length_drop]; omega

end Utf8

end AbsoluteImports
