import AbsoluteImports.Text.Utf16

/-!
# File encodings

A file is stored as UTF-8, or with a byte order mark as UTF-8 or UTF-16. The mark
alone decides, is removed when the file is read, and is put back when it is written.
-/

namespace AbsoluteImports

inductive Encoding where
  | utf8
  | utf8Mark
  | utf16 (order : Utf16.Order)
  deriving DecidableEq, Repr

namespace Encoding

/-- Why content could not be read. -/
inductive Error where
  /-- The bytes are no text in the encoding that was found. -/
  | invalid (encoding : Encoding)
  deriving DecidableEq, Repr

def name : Encoding → String
  | utf8 => "utf-8"
  | utf8Mark => "utf-8-bom"
  | utf16 .little => "utf-16le"
  | utf16 .big => "utf-16be"

def code : Encoding → Nat
  | utf8 => 0
  | utf8Mark => 1
  | utf16 .little => 2
  | utf16 .big => 3

/-- The encoding of a number; a number without a meaning of its own is UTF-8. -/
def ofCode : Int → Encoding
  | 1 => utf8Mark
  | 2 => utf16 .little
  | 3 => utf16 .big
  | _ => utf8

/-- The byte order mark that a file in this encoding starts with. -/
def mark : Encoding → Bytes
  | utf8 => []
  | utf8Mark => [0xEF, 0xBB, 0xBF]
  | utf16 .little => [0xFF, 0xFE]
  | utf16 .big => [0xFE, 0xFF]

/-- The encoding that the first bytes show. -/
def detect : Bytes → Encoding
  | 0xEF :: 0xBB :: 0xBF :: _ => utf8Mark
  | 0xFF :: 0xFE :: _ => utf16 .little
  | 0xFE :: 0xFF :: _ => utf16 .big
  | _ => utf8

/-- The text of content in a given encoding, without its mark. -/
def decodeAs? (e : Encoding) (content : Bytes) : Option Text :=
  let body := content.drop e.mark.length
  match e with
  | utf8 | utf8Mark => Utf8.decode? body
  | utf16 o => some (Utf16.decode o body)

def decode (content : Bytes) : Except Error (Text × Encoding) :=
  let e := detect content
  match decodeAs? e content with
  | some text => .ok (text, e)
  | none => .error (.invalid e)

def encode (text : Text) (e : Encoding) : Bytes :=
  e.mark ++ match e with
    | utf8 | utf8Mark => Utf8.encode text
    | utf16 o => Utf16.encode o text

/-- The cause of every refused content, as shown. -/
def Error.cause : String := "invalid text encoding"

def Error.message : Error → String
  | .invalid e => "decoding " ++ e.name ++ ": " ++ cause

end Encoding

end AbsoluteImports
