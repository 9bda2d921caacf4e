import AbsoluteImports.Text.Utf8

/-!
# JSON values

A reader for the values of JSON text. It reads one value from the front of a text and gives
what follows it, whatever that is. An object keeps its members in order, repeated names
included; a number keeps its spelling.
-/

namespace AbsoluteImports

inductive JsonValue where
  | null
  | bool (b : Bool)
  /-- A number as it is spelled. -/
  | number (spelling : Text)
  | string (t : Text)
  | array (items : List JsonValue)
  | object (members : List (Text × JsonValue))
  deriving Repr

namespace JsonValue

/-! ### White space and numbers -/

def isSpace (c : Char) : Bool := c == ' ' || c == '\t' || c == '\n' || c == '\r'

def skip (s : Text) : Text := s.dropWhile isSpace

def digits? (s : Text) : Option (Text × Text) :=
  match s.takeWhile Char.isDigit with
  | [] => none
  | ds => some (ds, s.dropWhile Char.isDigit)

/-- The digits before the point: a zero alone, or digits that do not start with zero. -/
def wholePart? : Text → Option (Text × Text)
  | '0' :: r => some (['0'], r)
  | s => digits? s

/-- The digits after a point, with the point; nothing when there is no point. -/
def fraction? : Text → Option (Text × Text)
  | '.' :: r => (digits? r).map fun (ds, k) => ('.' :: ds, k)
  | s => some ([], s)

def exponent? : Text → Option (Text × Text)
  | c :: r =>
    if c == 'e' || c == 'E' then
      let sign := r.takeWhile fun d => d == '+' || d == '-'
      if sign.length ≤ 1 then
        (digits? (r.drop sign.length)).map fun (ds, k) => (c :: sign ++ ds, k)
      else none
    else some ([], c :: r)
  | [] => some ([], [])

def number? (s : Text) : Option (Text × Text) := do
  let (sign, s) := match s with
    | '-' :: r => (['-'], r)
    | s => ([], s)
  let (whole, s) ← wholePart? s
  let (fraction, s) ← fraction? s
  let (exponent, s) ← exponent? s
  some (sign ++ whole ++ fraction ++ exponent, s)

/-! ### Strings -/

def escaped? : Char → Option Char
  | '"' => some '"'
  | '\\' => some '\\'
  | '/' => some '/'
  | 'b' => some '\x08'
  | 'f' => some '\x0c'
  | 'n' => some '\n'
  | 'r' => some '\r'
  | 't' => some '\t'
  | _ => none

def isHigh (n : Nat) : Bool := 0xD800 ≤ n && n < 0xDC00

def isLow (n : Nat) : Bool := 0xDC00 ≤ n && n < 0xE000

/-- The character of a unit alone; half a pair gives a replacement character. -/
def unitChar (n : Nat) : Char := if isHigh n || isLow n then Utf8.replacement else Char.ofNat n

/-- A part of a string: a character, or a unit that was escaped by its number. -/
inductive Part where
  | char (c : Char)
  | unit (n : Nat)

def parts? : Text → Option (List Part × Text)
  | [] => none
  | '"' :: r => some ([], r)
  | '\\' :: 'u' :: a :: b :: c :: d :: r => do
    let n ← Text.digits? 16 [a, b, c, d]
    let (ps, k) ← parts? r
    some (.unit n :: ps, k)
  | '\\' :: e :: r => do
    let c ← escaped? e
    let (ps, k) ← parts? r
    some (.char c :: ps, k)
  | c :: r =>
    if c.toNat < 0x20 || c == '\\' then none
    else (parts? r).map fun (ps, k) => (.char c :: ps, k)

/-- The text of the parts of a string: two units that make a pair are one character. -/
def textOf : List Part → Text
  | [] => []
  | .unit n :: .unit m :: ps =>
    if isHigh n && isLow m then
      Char.ofNat (0x10000 + (n - 0xD800) * 0x400 + (m - 0xDC00)) :: textOf ps
    else unitChar n :: textOf (.unit m :: ps)
  | .unit n :: ps => unitChar n :: textOf ps
  | .char c :: ps => c :: textOf ps

def string? (s : Text) : Option (Text × Text) := (parts? s).map fun (ps, k) => (textOf ps, k)

/-! ### Values -/

mutual

/-- A value from the front. The first argument bounds the nesting. -/
def value? : Nat → Text → Option (JsonValue × Text)
  | 0, _ => none
  | fuel + 1, s =>
    match skip s with
    | '"' :: r => (string? r).map fun (t, k) => (.string t, k)
    | '[' :: r =>
      match skip r with
      | ']' :: k => some (.array [], k)
      | r' => (items? fuel r').map fun (vs, k) => (.array vs, k)
    | '\x7b' :: r =>
      match skip r with
      | '\x7d' :: k => some (.object [], k)
      | r' => (members? fuel r').map fun (ms, k) => (.object ms, k)
    | 't' :: 'r' :: 'u' :: 'e' :: k => some (.bool true, k)
    | 'f' :: 'a' :: 'l' :: 's' :: 'e' :: k => some (.bool false, k)
    | 'n' :: 'u' :: 'l' :: 'l' :: k => some (.null, k)
    | r => (number? r).map fun (n, k) => (.number n, k)

def items? : Nat → Text → Option (List JsonValue × Text)
  | 0, _ => none
  | fuel + 1, s => do
    let (v, k) ← value? fuel s
    match skip k with
    | ',' :: r => do
      let (vs, k') ← items? fuel r
      some (v :: vs, k')
    | ']' :: r => some ([v], r)
    | _ => none

def members? : Nat → Text → Option (List (Text × JsonValue) × Text)
  | 0, _ => none
  | fuel + 1, s =>
    match skip s with
    | '"' :: r => do
      let (name, k) ← string? r
      match skip k with
      | ':' :: r => do
        let (v, k) ← value? fuel r
        match skip k with
        | ',' :: r => do
          let (ms, k') ← members? fuel r
          some ((name, v) :: ms, k')
        | '\x7d' :: r => some ([(name, v)], r)
        | _ => none
      | _ => none
    | _ => none

end

def read? (s : Text) : Option (JsonValue × Text) := value? (2 * s.length + 1) s

end JsonValue

end AbsoluteImports
