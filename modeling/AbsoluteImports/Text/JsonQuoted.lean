import AbsoluteImports.Text.Basic

/-!
# Text in JSON

A text in double quotes as a JSON value. A quote, a backslash, controls and the two separators
that end a line in some readers are escaped; every other character stands for itself.
-/

namespace AbsoluteImports.Text

def jsonChar (c : Char) : Text :=
  let n := c.toNat
  if c = '"' then ['\\', '"']
  else if c = '\\' then ['\\', '\\']
  else if c = '\n' then ['\\', 'n']
  else if c = '\r' then ['\\', 'r']
  else if c = '\t' then ['\\', 't']
  else if c = '\x08' then ['\\', 'b']
  else if c = '\x0c' then ['\\', 'f']
  else if n < 0x20 || n == 0x2028 || n == 0x2029 then '\\' :: 'u' :: hex 4 n
  else [c]

def jsonQuoted (t : Text) : Text := '"' :: t.flatMap jsonChar ++ ['"']

end AbsoluteImports.Text
