/-!
# Text

A text is a list of characters, so that every operation on it is a structural
recursion. This module holds the white space set that the whole library uses,
trimming, searching, cutting and padding.

A text stands for bytes that are UTF-8. Content of files is read from bytes and may be something
else; paths, names and settings are texts from the start. `Proofs.Document.Naming` takes the name of
a package as bytes.
-/

namespace AbsoluteImports

/-- A text: file content, a line, a path, a pattern or a package name. -/
abbrev Text := List Char

namespace Text

/-! ### White space -/

/-- The white space characters: tab, line feed, vertical tab, form feed,
carriage return, space, next line, and every separator character. -/
def isBlank (c : Char) : Bool :=
  let n := c.toNat
  (0x09 ≤ n && n ≤ 0x0D) || n == 0x20 || n == 0x85 || n == 0xA0 || n == 0x1680 ||
    (0x2000 ≤ n && n ≤ 0x200A) || n == 0x2028 || n == 0x2029 || n == 0x202F ||
    n == 0x205F || n == 0x3000

/-- A text of white space only; the empty text is one. -/
def allBlank (s : Text) : Bool := s.all isBlank

def trimLeft (s : Text) : Text := s.dropWhile isBlank

def trimRight : Text → Text
  | [] => []
  | c :: r => if allBlank (c :: r) then [] else c :: trimRight r

def trim (s : Text) : Text := trimRight (trimLeft s)

/-! ### Searching and cutting -/

/-- The text that is left after a given beginning, if the text begins so. -/
def stripStart? : Text → Text → Option Text
  | [], s => some s
  | _ :: _, [] => none
  | c :: r, d :: s => if c = d then stripStart? r s else none

def startsWith (w s : Text) : Bool := w.isPrefixOf s

def endsWith (w s : Text) : Bool := w.isSuffixOf s

def holds (w : Text) : Text → Bool
  | [] => w.isEmpty
  | c :: r => w.isPrefixOf (c :: r) || holds w r

/-- The pieces between the occurrences of a character; never the empty list. -/
def splitAt (sep : Char) : Text → List Text
  | [] => [[]]
  | c :: r =>
    if c = sep then [] :: splitAt sep r
    else match splitAt sep r with
      | [] => [[c]]
      | w :: ws => (c :: w) :: ws

/-- The pieces with one separator character between neighbours. -/
def joinWith (sep : Char) : List Text → Text
  | [] => []
  | [w] => w
  | w :: v :: ws => w ++ sep :: joinWith sep (v :: ws)

def joinText (sep : Text) : List Text → Text
  | [] => []
  | [w] => w
  | w :: v :: ws => w ++ sep ++ joinText sep (v :: ws)

/-! ### Padding and numbers -/

/-- The text filled up with spaces on the right to a width counted in
characters; a longer text is not cut. -/
def padRight (width : Nat) (s : Text) : Text := s ++ List.replicate (width - s.length) ' '

/-- The lower-case hexadecimal digits of a number, at least `width` of them. -/
def hex (width : Nat) (n : Nat) : Text :=
  let ds := Nat.toDigits 16 n
  List.replicate (width - ds.length) '0' ++ ds

def decimal (ds : Text) : Nat := ds.foldl (fun n c => n * 10 + (c.toNat - '0'.toNat)) 0

/-- The value of a digit in a base up to sixteen. -/
def digit? (base : Nat) (c : Char) : Option Nat :=
  let value :=
    if '0' ≤ c && c ≤ '9' then c.toNat - '0'.toNat
    else if 'a' ≤ c && c ≤ 'f' then c.toNat - 'a'.toNat + 10
    else if 'A' ≤ c && c ≤ 'F' then c.toNat - 'A'.toNat + 10
    else base
  if value < base then some value else none

/-- The number of a text of digits in a base, of which there must be one at least. -/
def digits? (base : Nat) (ds : Text) : Option Nat :=
  if ds.isEmpty then none
  else ds.foldlM (fun n c => (digit? base c).map (n * base + ·)) 0

end Text

end AbsoluteImports
