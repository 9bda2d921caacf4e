import AbsoluteImports.Text.Quoted

/-!
# Exclude patterns

A pattern is a text in which `*`, `**`, `?`, classes in square brackets and
alternatives in braces have a meaning, and a backslash takes the meaning from the
character after it. A pattern is well formed when every backslash is followed by a
character, every class is closed and not empty, and the braces are balanced.
-/

namespace AbsoluteImports.Glob

/-! ### Well-formed patterns -/

/-- Whether the rest of a pattern is well formed, from inside a class or outside,
with `depth` braces still open. -/
def isValidFrom (inClass : Bool) (depth : Nat) : Text → Bool
  | [] => !inClass && depth == 0
  | ['\\'] => false
  | '\\' :: _ :: r => isValidFrom inClass depth r
  | c :: r =>
    if inClass then isValidFrom (c != ']') depth r
    else if c = '{' then isValidFrom false (depth + 1) r
    else if c = '}' then depth != 0 && isValidFrom false (depth - 1) r
    else if c = '[' then
      match r with
      | [] => false
      | d :: r' =>
        if d = '^' || d = '!' then r'.head? != some ']' && isValidFrom true depth r'
        else d != ']' && isValidFrom true depth (d :: r')
    else isValidFrom false depth r

/-- Whether a pattern is well formed. -/
def isValid (pattern : Text) : Bool := isValidFrom false 0 pattern

/-- Why a list of patterns is refused. -/
inductive Error where
  | badPattern (pattern : Text)
  deriving DecidableEq, Repr

def Error.message : Error → String
  | .badPattern p => "bad exclude pattern: " ++ Text.quoted p

/-- Accepts a list of well-formed patterns and names the first that is not. -/
def validate : List Text → Except Error Unit
  | [] => .ok ()
  | p :: ps => if isValid p then validate ps else .error (.badPattern p)

/-! ### Braces -/

/-- Cuts a text at the brace that closes one opened before it: what stands inside and
what follows. Classes do not hide a brace. -/
def closeBrace? (depth : Nat) : Text → Option (Text × Text)
  | [] => none
  | ['\\'] => none
  | '\\' :: c :: r => (closeBrace? depth r).map fun (w, k) => ('\\' :: c :: w, k)
  | c :: r =>
    if c = '}' && depth == 0 then some ([], r)
    else
      let depth' := if c = '{' then depth + 1 else if c = '}' then depth - 1 else depth
      (closeBrace? depth' r).map fun (w, k) => (c :: w, k)

def pushFirst (w : Text) : List Text → List Text
  | [] => [w]
  | v :: vs => (w ++ v) :: vs

/-- The alternatives between braces: the pieces between commas outside inner braces. -/
def alternatives (depth : Nat) : Text → List Text
  | [] => [[]]
  | ['\\'] => [['\\']]
  | '\\' :: c :: r => pushFirst ['\\', c] (alternatives depth r)
  | c :: r =>
    if c = ',' && depth == 0 then [] :: alternatives depth r
    else
      let depth' := if c = '{' then depth + 1 else if c = '}' then depth - 1 else depth
      pushFirst [c] (alternatives depth' r)

end AbsoluteImports.Glob
