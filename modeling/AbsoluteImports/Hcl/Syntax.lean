import AbsoluteImports.Hcl.Number
import AbsoluteImports.Text.Identifier
import AbsoluteImports.Text.Utf8

/-!
# HCL syntax

Attributes, one per line, with expressions as their values; and blocks, which are read only to
know that they are there. A line break ends an expression unless it stands inside brackets.
-/

namespace AbsoluteImports.Hcl

/-! ### Expressions -/

/-- An operator before an expression. -/
inductive UnaryOp where
  | negate
  | not
  deriving DecidableEq, Repr

/-- An operator between two expressions. -/
inductive BinaryOp where
  | or
  | and
  | equal
  | notEqual
  | greaterEqual
  | lessEqual
  | greater
  | less
  | add
  | subtract
  | multiply
  | divide
  | remainder
  deriving DecidableEq, Repr

inductive Expr where
  | null
  | bool (b : Bool)
  | number (n : Number)
  | text (t : Text)
  /-- A text with expressions in it. -/
  | template (parts : List Expr)
  | variable (name : Text)
  | attribute (e : Expr) (name : Text)
  | index (e key : Expr)
  | tuple (items : List Expr)
  | object (items : List (Expr × Expr))
  | unary (op : UnaryOp) (e : Expr)
  | binary (op : BinaryOp) (a b : Expr)
  | conditional (condition yes no : Expr)
  /-- A function call or another form that has no value here. -/
  | unsupported
  deriving Repr

/-- The content of a file or block. -/
structure Body where
  attributes : List (Text × Expr)
  hasBlocks : Bool

/-! ### White space, names and numbers -/

def afterComment? : Text → Option Text
  | [] => none
  | '*' :: '/' :: r => some r
  | _ :: r => afterComment? r

/-- Skips blanks and comments, and line breaks too unless they count. -/
def skip (breaksCount : Bool) : Nat → Text → Option Text
  | 0, s => some s
  | fuel + 1, s =>
    match s with
    | ' ' :: r | '\t' :: r => skip breaksCount fuel r
    | '\n' :: r => if breaksCount then some s else skip breaksCount fuel r
    | '\r' :: '\n' :: r => if breaksCount then some s else skip breaksCount fuel r
    | '#' :: r => skip breaksCount fuel (r.dropWhile (· != '\n'))
    | '/' :: '/' :: r => skip breaksCount fuel (r.dropWhile (· != '\n'))
    | '/' :: '*' :: r => (afterComment? r).bind (skip breaksCount fuel)
    | _ => some s

def skipTo (breaksCount : Bool) (s : Text) : Option Text := skip breaksCount (s.length + 1) s

def name? : Text → Option (Text × Text)
  | [] => none
  | c :: r =>
    let isRest := fun c => Text.isIdentifierRest c || c == '-'
    if Text.isIdentifierStart c then some (c :: r.takeWhile isRest, r.dropWhile isRest) else none

def takeFraction : Text → Text × Text
  | '.' :: d :: r =>
    if d.isDigit then ('.' :: d :: r.takeWhile Char.isDigit, r.dropWhile Char.isDigit)
    else ([], '.' :: d :: r)
  | s => ([], s)

def takeExponent : Text → Text × Text
  | c :: r =>
    let (sign, ds) := match r with
      | '+' :: r' => (['+'], r')
      | '-' :: r' => (['-'], r')
      | r' => ([], r')
    if (c == 'e' || c == 'E') && ds.head?.any Char.isDigit then
      (c :: sign ++ ds.takeWhile Char.isDigit, ds.dropWhile Char.isDigit)
    else ([], c :: r)
  | [] => ([], [])

def number? (s : Text) : Option (Number × Text) :=
  let whole := s.takeWhile Char.isDigit
  let (fraction, r) := takeFraction (s.dropWhile Char.isDigit)
  let (exponent, r) := takeExponent r
  if whole.isEmpty then none
  else (Number.ofText? (whole ++ fraction ++ exponent)).map (·, r)

/-- A whole number from the front, which selects an item behind a point. -/
def position? (s : Text) : Option (Number × Text) :=
  let ds := s.takeWhile Char.isDigit
  if ds.isEmpty then none else some (.ofScaled (Text.decimal ds) 0, s.dropWhile Char.isDigit)

/-! ### Operators -/

/-- The operators of each rank, those that bind weakest first; of two with a common beginning
the longer comes first. -/
def operators : List (List (String × BinaryOp)) := [
  [("||", .or)],
  [("&&", .and)],
  [("==", .equal), ("!=", .notEqual)],
  [(">=", .greaterEqual), ("<=", .lessEqual), (">", .greater), ("<", .less)],
  [("+", .add), ("-", .subtract)],
  [("*", .multiply), ("/", .divide), ("%", .remainder)]]

def operator? (ops : List (String × BinaryOp)) (s : Text) : Option (BinaryOp × Text) :=
  ops.findSome? fun (w, op) => (Text.stripStart? w.toList s).map (op, ·)

/-! ### Quoted text -/

def escaped? : Char → Option Char
  | 'n' => some '\n'
  | 'r' => some '\r'
  | 't' => some '\t'
  | '"' => some '"'
  | '\\' => some '\\'
  | _ => none

/-- The character of a number; one that stands for no character gives the replacement
character. -/
def charOf (n : Nat) : Char := if n.isValidChar then Char.ofNat n else Utf8.replacement

def escape? : Text → Option (Char × Text)
  | 'u' :: r => if 4 ≤ r.length then (Text.digits? 16 (r.take 4)).map (charOf ·, r.drop 4) else none
  | 'U' :: r => if 8 ≤ r.length then (Text.digits? 16 (r.take 8)).map (charOf ·, r.drop 8) else none
  | c :: r => (escaped? c).map (·, r)
  | [] => none

/-- What ends a literal part of a quoted text. -/
inductive LiteralEnd where
  | quote
  | expression

/-- The literal characters of a quoted text up to its end or to an expression in it. -/
def literal? : Nat → Text → Option (Text × LiteralEnd × Text)
  | 0, _ => none
  | fuel + 1, s =>
    let more := fun (c : Char) (r : Text) => (literal? fuel r).map fun (t, e, k) => (c :: t, e, k)
    match s with
    | [] => none
    | '"' :: r => some ([], .quote, r)
    | '\n' :: _ => none
    | '\r' :: _ => none
    | '\\' :: r => do
      let (c, k) ← escape? r
      more c k
    | '$' :: '$' :: '\x7b' :: r =>
      (literal? fuel r).map fun (t, e, k) => ('$' :: '\x7b' :: t, e, k)
    | '%' :: '%' :: '\x7b' :: r =>
      (literal? fuel r).map fun (t, e, k) => ('%' :: '\x7b' :: t, e, k)
    | '$' :: '\x7b' :: r => some ([], .expression, r)
    | '%' :: '\x7b' :: _ => none
    | c :: r => more c r

/-- The expression of the parts of a quoted text: one expression alone keeps its value. -/
def ofParts : List Expr → Expr
  | [] => .text []
  | [e] => e
  | parts => .template parts

/-- A literal part of a quoted text, left out when nothing was written; `kept` is what trimming
left of it. -/
def literalPart (written kept : Text) : List Expr := if written.isEmpty then [] else [.text kept]

/-! ### Reading expressions -/

mutual

/-- Reads an expression. The first argument bounds the number of steps. -/
def expr : Nat → (breaksCount : Bool) → Text → Option (Expr × Text)
  | 0, _, _ => none
  | fuel + 1, nl, s => do
    let (c, s) ← ranked operators fuel nl s
    match ← skipTo nl s with
    | '?' :: s => do
      let (yes, s) ← expr fuel nl s
      match ← skipTo nl s with
      | ':' :: s => do
        let (no, s) ← expr fuel nl s
        some (.conditional c yes no, s)
      | _ => none
    | _ => some (c, s)

/-- Reads operands between operators of a rank and all that bind stronger. -/
def ranked (ranks : List (List (String × BinaryOp))) : Nat → Bool → Text → Option (Expr × Text)
  | 0, _, _ => none
  | fuel + 1, nl, s =>
    match ranks with
    | [] => operand fuel nl s
    | ops :: stronger => do
      let (a, s) ← ranked stronger fuel nl s
      chain ops stronger a fuel nl s

/-- Reads further operators of a rank behind an operand, from left to right. -/
def chain (ops : List (String × BinaryOp)) (stronger : List (List (String × BinaryOp))) (a : Expr) :
    Nat → Bool → Text → Option (Expr × Text)
  | 0, _, _ => none
  | fuel + 1, nl, s => do
    let s' ← skipTo nl s
    match operator? ops s' with
    | some (op, r) => do
      let (b, r) ← ranked stronger fuel nl r
      chain ops stronger (.binary op a b) fuel nl r
    | none => some (a, s)

def operand : Nat → Bool → Text → Option (Expr × Text)
  | 0, _, _ => none
  | fuel + 1, nl, s => do
    let (e, s) ← term fuel nl s
    selected e fuel nl s

def selected (e : Expr) : Nat → Bool → Text → Option (Expr × Text)
  | 0, _, _ => none
  | fuel + 1, nl, s => do
    match ← skipTo nl s with
    | '.' :: r => do
      let r ← skipTo nl r
      match name? r, position? r, r with
      | some (name, r), _, _ => selected (.attribute e name) fuel nl r
      | none, some (n, r), _ => selected (.index e (.number n)) fuel nl r
      | none, none, '*' :: r => selected .unsupported fuel nl r
      | none, none, _ => none
    | '[' :: r => do
      match ← skipTo false r with
      | '*' :: r => do
        match ← skipTo false r with
        | ']' :: r => selected .unsupported fuel nl r
        | _ => none
      | r => do
        let (key, r) ← expr fuel false r
        match ← skipTo false r with
        | ']' :: r => selected (.index e key) fuel nl r
        | _ => none
    | _ => some (e, s)

def term : Nat → Bool → Text → Option (Expr × Text)
  | 0, _, _ => none
  | fuel + 1, nl, s => do
    match ← skipTo nl s with
    | '(' :: r => do
      let (e, r) ← expr fuel false r
      match ← skipTo false r with
      | ')' :: r => some (e, r)
      | _ => none
    | '"' :: r => do
      let (parts, r) ← quotedParts fuel false r
      some (ofParts parts, r)
    | '-' :: r => do
      let (e, r) ← operand fuel nl r
      some (.unary .negate e, r)
    | '!' :: r => do
      let (e, r) ← operand fuel nl r
      some (.unary .not e, r)
    | '[' :: r => do
      let (items, r) ← expressions ']' fuel r
      some (.tuple items, r)
    | '\x7b' :: r => do
      let (items, r) ← objectItems fuel r
      some (.object items, r)
    | s =>
      match name? s with
      | some (name, r) => do
        match ← skipTo nl r with
        | '(' :: r => do
          let (_, r) ← expressions ')' fuel r
          some (.unsupported, r)
        | _ =>
          if name = "true".toList then some (.bool true, r)
          else if name = "false".toList then some (.bool false, r)
          else if name = "null".toList then some (.null, r)
          else some (.variable name, r)
      | none => (number? s).map fun (n, r) => (.number n, r)

/-- Reads expressions with commas between them up to a closing bracket; a comma before the
bracket is allowed. -/
def expressions (close : Char) : Nat → Text → Option (List Expr × Text)
  | 0, _ => none
  | fuel + 1, s => do
    match ← skipTo false s with
    | [] => none
    | c :: r =>
      if c = close then some ([], r)
      else do
        let (e, r) ← expr fuel false (c :: r)
        match ← skipTo false r with
        | ',' :: r => do
          let (es, r) ← expressions close fuel r
          some (e :: es, r)
        | '.' :: '.' :: '.' :: r => do
          match close, ← skipTo false r with
          | ')', ')' :: r => some ([e], r)
          | _, _ => none
        | d :: r => if d = close then some ([e], r) else none
        | [] => none

/-- Reads the items of an object up to its end; a comma or a line break stands between two. -/
def objectItems : Nat → Text → Option (List (Expr × Expr) × Text)
  | 0, _ => none
  | fuel + 1, s => do
    match ← skipTo false s with
    | '\x7d' :: r => some ([], r)
    | s => do
      let (key, r) ← expr fuel true s
      let key := match key with
        | .variable name => .text name
        | e => e
      let r ← match ← skipTo true r with
        | '=' :: r => some r
        | ':' :: r => some r
        | _ => none
      let (value, r) ← expr fuel true r
      match ← skipTo true r with
      | '\x7d' :: r => some ([(key, value)], r)
      | ',' :: r | '\n' :: r | '\r' :: '\n' :: r => do
        let (items, r) ← objectItems fuel r
        some ((key, value) :: items, r)
      | _ => none

/-- Reads the parts of a quoted text up to its end. A tilde at the edge of an expression takes
away the white space of the literal text beside it. -/
def quotedParts : Nat → (trimmed : Bool) → Text → Option (List Expr × Text)
  | 0, _, _ => none
  | fuel + 1, trimmed, s => do
    let (written, stop, r) ← literal? (s.length + 1) s
    let t := if trimmed then Text.trimLeft written else written
    match stop with
    | .quote => some (literalPart written t, r)
    | .expression => do
      let (t, r) := match r with
        | '~' :: r => (Text.trimRight t, r)
        | r => (t, r)
      let (e, r) ← expr fuel false r
      let (after, r) ← match ← skipTo false r with
        | '\x7d' :: r => some (false, r)
        | '~' :: '\x7d' :: r => some (true, r)
        | _ => none
      let (parts, r) ← quotedParts fuel after r
      some (literalPart written t ++ e :: parts, r)

end

/-! ### Reading bodies -/

def skipLines (s : Text) : Option Text := skipTo false s

def lineEnd? (s : Text) : Option Text :=
  match skipTo true s with
  | some ('\n' :: r) => some r
  | some ('\r' :: '\n' :: r) => some r
  | some [] => some []
  | _ => none

/-- Skips the labels of a block up to the opening brace, and gives what follows it. -/
def afterLabels? : Nat → Text → Option Text
  | 0, _ => none
  | fuel + 1, s => do
    match ← skipTo true s with
    | '\x7b' :: r => some r
    | '"' :: r =>
      match literal? (r.length + 1) r with
      | some (_, .quote, r) => afterLabels? fuel r
      | _ => none
    | s => do
      let (_, r) ← name? s
      afterLabels? fuel r

/-- Adds an attribute to a body; a name may not occur twice. -/
def Body.add? (name : Text) (e : Expr) (b : Body) : Option Body :=
  if b.attributes.any (·.1 == name) then none
  else some { b with attributes := (name, e) :: b.attributes }

mutual

/-- Reads attributes and blocks up to the end of the text, or to a closing brace. -/
def body (inBlock : Bool) : Nat → Text → Option (Body × Text)
  | 0, _ => none
  | fuel + 1, s => do
    match ← skipLines s with
    | [] => if inBlock then none else some (⟨[], false⟩, [])
    | '\x7d' :: r => if inBlock then some (⟨[], false⟩, r) else none
    | s => do
      let (name, r) ← name? s
      match ← skipTo true r with
      | '=' :: r => do
        if r.head? == some '=' then none
        let (e, r) ← expr (8 * r.length + 16) true r
        let r ← lineEnd? r
        let (b, r) ← body inBlock fuel r
        let b ← b.add? name e
        some (b, r)
      | _ => do
        let r ← afterLabels? (r.length + 1) r
        let r ← block fuel r
        let r ← lineEnd? r
        let (b, r) ← body inBlock fuel r
        some ({ b with hasBlocks := true }, r)

/-- Reads the content of a block behind its opening brace: lines, or one attribute on the same
line. -/
def block : Nat → Text → Option Text
  | 0, _ => none
  | fuel + 1, s => do
    match ← skipTo true s with
    | '\n' :: r | '\r' :: '\n' :: r => (body true fuel r).map (·.2)
    | '\x7d' :: r => some r
    | s => do
      let (_, r) ← name? s
      match ← skipTo true r with
      | '=' :: r => do
        let (_, r) ← expr (8 * r.length + 16) true r
        match ← skipTo true r with
        | '\x7d' :: r => some r
        | _ => none
      | _ => none

end

def parse? (s : Text) : Option Body := (body false (2 * s.length + 4) s).map (·.1)

end AbsoluteImports.Hcl
