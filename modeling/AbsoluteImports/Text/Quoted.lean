import AbsoluteImports.Text.Printable

/-!
# Quoted text

A text in double quotes, as it stands in messages. Printable characters stand for
themselves; a quote, a backslash and the controls with a letter of their own are
escaped by that letter, other characters by their code point.
-/

namespace AbsoluteImports.Text

/-- The letter that escapes a character after a backslash, if it has one. -/
def escapeLetter? : Char → Option Char
  | '"' => some '"'
  | '\\' => some '\\'
  | '\x07' => some 'a'
  | '\x08' => some 'b'
  | '\x0c' => some 'f'
  | '\n' => some 'n'
  | '\r' => some 'r'
  | '\t' => some 't'
  | '\x0b' => some 'v'
  | _ => none

def quotedChar (c : Char) : Text :=
  match escapeLetter? c with
  | some l => ['\\', l]
  | none =>
    let n := c.toNat
    if isPrintable c then [c]
    else if n < 0x80 then '\\' :: 'x' :: hex 2 n
    else if n < 0x10000 then '\\' :: 'u' :: hex 4 n
    else '\\' :: 'U' :: hex 8 n

def quoted (s : Text) : String := String.ofList ('"' :: s.flatMap quotedChar ++ ['"'])

/-- A character in single quotes; a double quote stands for itself there. -/
def quotedAlone (c : Char) : String :=
  let shown := if c = '\x27' then ['\\', c] else if c = '"' then [c] else quotedChar c
  String.ofList ('\x27' :: shown ++ ['\x27'])

/-- Whether a text can stand between back quotes as it is: on one line, without controls
other than the tab, and without a back quote. -/
def isRaw (s : Text) : Bool :=
  s.all fun c =>
    let n := c.toNat
    (0x20 ≤ n || c == '\t') && n != 0x60 && n != 0x7F && n != 0xFEFF

/-- The text in back quotes, or in double quotes where they do not do. -/
def backQuoted (s : Text) : String := if isRaw s then "`" ++ String.ofList s ++ "`" else quoted s

end AbsoluteImports.Text
