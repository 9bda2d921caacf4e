import AbsoluteImports.Yaml.Scalar

/-!
# YAML layout

Text becomes tokens, in which indentation is made explicit: a block list or a block mapping
starts with a token of its own and ends with one. That a scalar is a key is known only when
the colon behind it is met, so tokens wait in a queue until no colon can change them. A text
that breaks a rule of the layout has no further token.
-/

namespace AbsoluteImports.Yaml

inductive Token where
  | documentStart
  | documentEnd
  | streamEnd
  | listStart
  | mapStart
  | blockEnd
  | flowListStart
  | flowListEnd
  | flowMapStart
  | flowMapEnd
  /-- The hyphen of a block list. -/
  | item
  /-- The comma of a flow collection. -/
  | comma
  | key
  | value
  | scalar (text : Text) (plain : Bool)
  deriving DecidableEq, Repr

/-- A place where a key may have started. -/
structure PossibleKey where
  /-- Whether the text is malformed unless a key started here. -/
  required : Bool
  /-- The number of the token that would be the key. -/
  token : Nat
  line : Nat
  column : Nat
  index : Nat

/-- What is known while a text is cut into tokens. -/
structure Layout where
  place : Place
  /-- The column of the innermost block, and of those around it; none outside all blocks. -/
  indents : List Nat
  /-- Whether a key may start here. -/
  keyAllowed : Bool
  /-- For each open flow collection, innermost first, and last for the blocks outside, where
  a key may have started. -/
  keys : List (Option PossibleKey)
  /-- Tokens that wait. -/
  queue : List Token
  /-- Number of tokens taken from the queue. -/
  taken : Nat

namespace Layout

def start (s : Text) : Layout := ⟨.start s, [], true, [none], [], 0⟩

def inFlow (l : Layout) : Bool := 1 < l.keys.length

def emit (l : Layout) (t : Token) : Layout := { l with queue := l.queue ++ [t] }

/-- One more token, behind which the text goes on after some characters. -/
def emitOver (l : Layout) (t : Token) (n : Nat) : Layout :=
  { l.emit t with place := l.place.advance n }

/-! ### Blocks -/

/-- Closes the blocks that are indented deeper than a column; all blocks when there is no
column. -/
def closeTo (column : Option Nat) (l : Layout) : Layout :=
  if l.inFlow then l
  else
    let deeper := l.indents.takeWhile fun i => column.all (· < i)
    { l with
      indents := l.indents.drop deeper.length
      queue := l.queue ++ deeper.map fun _ => .blockEnd }

/-- Opens a block at a column unless one is open there; its first token goes before the token
of a number, or behind all. -/
def openAt (column : Nat) (before : Option Nat) (t : Token) (l : Layout) : Layout :=
  if l.inFlow || l.indents.head?.any (column ≤ ·) then l
  else
    let n := match before with
      | some token => token - l.taken
      | none => l.queue.length
    { l with
      indents := column :: l.indents
      queue := l.queue.take n ++ t :: l.queue.drop n }

/-! ### Keys -/

/-- Gives up the key that may have started in the innermost collection. -/
def dropKey (l : Layout) : Option Layout :=
  match l.keys with
  | some k :: ks => if k.required then none else some { l with keys := none :: ks }
  | _ => some l

/-- Notes that a key may start here. -/
def noteKey (l : Layout) : Option Layout :=
  if l.keyAllowed then do
    let l ← l.dropKey
    let k : PossibleKey := ⟨!l.inFlow && l.indents.head? == some l.place.column,
      l.taken + l.queue.length, l.place.line, l.place.column, l.place.index⟩
    some { l with keys := some k :: l.keys.drop 1 }
  else some l

/-- Whether a possible key is still one: a key stands on one line and is not too long. A
required one that is not makes the text malformed. -/
def keyHolds (l : Layout) (k : PossibleKey) : Option Bool :=
  if k.line < l.place.line || k.index + 1024 < l.place.index then
    if k.required then none else some false
  else some true

/-! ### The next token -/

def skip : Nat → Layout → Layout
  | 0, l => l
  | fuel + 1, l =>
    match l.place.rest with
    | [] => l
    | c :: r =>
      if c == ' ' || (c == '\t' && (l.inFlow || !l.keyAllowed)) then
        skip fuel { l with place := l.place.advance 1 }
      else if c == '#' then
        let comment := (c :: r).takeWhile fun x => !isBreak x
        skip fuel { l with place := l.place.advance comment.length }
      else if isBreak c then
        skip fuel { l with place := l.place.nextLine, keyAllowed := l.keyAllowed || !l.inFlow }
      else l

def document (t : Token) (l : Layout) : Option Layout := do
  let l ← (l.closeTo none).dropKey
  some { l.emitOver t 3 with keyAllowed := false }

def flowStart (t : Token) (l : Layout) : Option Layout := do
  let l ← l.noteKey
  some { l.emitOver t 1 with keys := none :: l.keys, keyAllowed := true }

def flowEnd (t : Token) (l : Layout) : Option Layout := do
  let l ← l.dropKey
  some { l.emitOver t 1 with
    keys := if l.inFlow then l.keys.drop 1 else l.keys
    keyAllowed := false }

def listItem (l : Layout) : Option Layout :=
  if !l.inFlow && !l.keyAllowed then none
  else do
    let l ← (l.openAt l.place.column none .listStart).dropKey
    some { l.emitOver .item 1 with keyAllowed := true }

def explicitKey (l : Layout) : Option Layout :=
  if !l.inFlow && !l.keyAllowed then none
  else do
    let l ← (l.openAt l.place.column none .mapStart).dropKey
    some { l.emitOver .key 1 with keyAllowed := !l.inFlow }

def keyValue (l : Layout) : Option Layout := do
  let possible := l.keys.head?.join
  let holds ← match possible with
    | some k => l.keyHolds k
    | none => some false
  match possible, holds with
  | some k, true =>
    let n := k.token - l.taken
    let l := { l with
      queue := l.queue.take n ++ Token.key :: l.queue.drop n
      keys := none :: l.keys.drop 1 }
    let l := l.openAt k.column (some k.token) .mapStart
    some { l.emitOver .value 1 with keyAllowed := false }
  | _, _ =>
    if !l.inFlow && !l.keyAllowed then none
    else
      let l := l.openAt l.place.column none .mapStart
      some { l.emitOver .value 1 with keyAllowed := !l.inFlow, keys := none :: l.keys.drop 1 }

def plainScalar (l : Layout) : Option Layout := do
  let l ← l.noteKey
  let indent := match l.indents with
    | i :: _ => i + 1
    | [] => 0
  let (text, place, broken) ← plain l.inFlow indent (l.place.rest.length + 1) [] .none l.place
  some { l.emit (.scalar text true) with place := place, keyAllowed := broken }

def quotedScalar (single : Bool) (l : Layout) : Option Layout := do
  let l ← l.noteKey
  let (text, place) ← quoted single (l.place.rest.length + 1) [] (l.place.advance 1)
  some { l.emit (.scalar text false) with place := place, keyAllowed := false }

/-- Whether a plain scalar may start with a character that is followed by a text. -/
def startsPlain (inFlow : Bool) (c : Char) (r : Text) : Bool :=
  !(isBlank c || "-?:,[]\x7b\x7d#&*!|>'\"%@\x60".toList.contains c) ||
    (c == '-' && !r.head?.any isBlank) ||
    (!inFlow && (c == '?' || c == ':') && !atGap r)

/-- Reads the next token into the queue, with those that its layout brings. Directives,
anchors, aliases, tags and block scalars are not part of this language. -/
def next (l : Layout) : Option Layout :=
  let l := skip (l.place.rest.length + 1) l
  let l := l.closeTo (some l.place.column)
  match l.place.rest with
  | [] => do
    let l ← (l.closeTo none).dropKey
    some { l.emit .streamEnd with keyAllowed := false }
  | c :: r =>
    if c == '%' && l.place.column == 0 then none
    else if l.place.atMarker '-' then l.document .documentStart
    else if l.place.atMarker '.' then l.document .documentEnd
    else if c == '[' then l.flowStart .flowListStart
    else if c == '\x7b' then l.flowStart .flowMapStart
    else if c == ']' then l.flowEnd .flowListEnd
    else if c == '\x7d' then l.flowEnd .flowMapEnd
    else if c == ',' then do
      let l ← l.dropKey
      some { l.emitOver .comma 1 with keyAllowed := true }
    else if c == '-' && atGap r then l.listItem
    else if c == '?' && (l.inFlow || atGap r) then l.explicitKey
    else if c == ':' && (l.inFlow || atGap r) then l.keyValue
    else if c == '\'' then l.quotedScalar true
    else if c == '"' then l.quotedScalar false
    else if startsPlain l.inFlow c r then l.plainScalar
    else none

/-- Whether the first token of the queue may still become a key. A possible key that no
longer holds is given up. -/
def mayBeKey (l : Layout) : Option Bool :=
  l.keys.foldlM (fun found k =>
    match k with
    | some k => do
      if k.token = l.taken then return found || (← l.keyHolds k) else return found
    | none => some found) false

/-- Number of tokens that are read ahead of the first. -/
def lookahead : Nat := 2

/-- Reads tokens until the first of the queue is certain and enough others wait behind it. -/
def fetch : Nat → Layout → Option Layout
  | 0, _ => none
  | fuel + 1, l =>
    if l.queue.length ≤ lookahead then l.next.bind (fetch fuel)
    else do
      if ← l.mayBeKey then l.next.bind (fetch fuel) else some l

def peek (l : Layout) : Option (Token × Layout) := do
  let l ← l.fetch (l.place.rest.length + lookahead + 3)
  match l.queue with
  | t :: _ => some (t, l)
  | [] => none

def pop (l : Layout) : Layout := { l with queue := l.queue.drop 1, taken := l.taken + 1 }

end Layout

end AbsoluteImports.Yaml
