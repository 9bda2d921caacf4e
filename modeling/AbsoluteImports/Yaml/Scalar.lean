import AbsoluteImports.Text.Utf8

/-!
# YAML scalars

A place in a text with its line and column, and the reading of plain and quoted scalars from
it. Line breaks inside a scalar are folded: one becomes a space, of several the first is
dropped.
-/

namespace AbsoluteImports.Yaml

/-! ### Characters -/

def isBreak (c : Char) : Bool :=
  c == '\n' || c == '\r' || c.toNat == 0x85 || c.toNat == 0x2028 || c.toNat == 0x2029

def isBlank (c : Char) : Bool := c == ' ' || c == '\t'

def atGap : Text → Bool
  | [] => true
  | c :: _ => isBlank c || isBreak c

def isAllowed (c : Char) : Bool :=
  let n := c.toNat
  n == 0x09 || n == 0x0A || n == 0x0D || (0x20 ≤ n && n ≤ 0x7E) || n == 0x85 ||
    (0xA0 ≤ n && n ≤ 0xFFFD && n != 0xFEFF) || 0x10000 ≤ n

/-! ### Places -/

/-- A place in a text: what follows it, and where it stands. -/
structure Place where
  rest : Text
  line : Nat
  column : Nat
  index : Nat

namespace Place

def start (s : Text) : Place := ⟨s, 0, 0, 0⟩

def advance (p : Place) (n : Nat) : Place :=
  ⟨p.rest.drop n, p.line, p.column + n, p.index + n⟩

/-- The place behind a line break; a carriage return with a line feed is one. -/
def nextLine (p : Place) : Place :=
  match p.rest with
  | '\r' :: '\n' :: r => ⟨r, p.line + 1, 0, p.index + 2⟩
  | _ :: r => ⟨r, p.line + 1, 0, p.index + 1⟩
  | [] => p

def lineBreak (p : Place) : Text :=
  match p.rest with
  | c :: _ => if c.toNat == 0x2028 || c.toNat == 0x2029 then [c] else ['\n']
  | [] => []

/-- Whether a marker of three characters that starts or ends a document stands here. -/
def atMarker (p : Place) (c : Char) : Bool :=
  p.column == 0 && [c, c, c].isPrefixOf p.rest && atGap (p.rest.drop 3)

def atDocument (p : Place) : Bool := p.atMarker '-' || p.atMarker '.'

end Place

/-! ### White space inside scalars -/

/-- White space that was met inside a scalar and counts only if more text follows. -/
structure Gap where
  /-- Blanks before any line break. -/
  blanks : Text
  /-- The first line break. -/
  first : Text
  /-- Further line breaks. -/
  more : Text
  /-- Whether a line break was met. -/
  broken : Bool

def Gap.none : Gap := ⟨[], [], [], false⟩

def Gap.text (g : Gap) : Text :=
  if g.broken then
    if g.first = ['\n'] then (if g.more.isEmpty then [' '] else g.more) else g.first ++ g.more
  else g.blanks

/-- Reads white space. In a plain scalar a tab may not stand left of the indentation. -/
def gap (plainIndent : Option Nat) : Nat → Gap → Place → Option (Gap × Place)
  | 0, g, p => some (g, p)
  | fuel + 1, g, p =>
    match p.rest with
    | [] => some (g, p)
    | c :: _ =>
      if isBlank c then
        if g.broken && c == '\t' && plainIndent.any (p.column < ·) then Option.none
        else
          gap plainIndent fuel (if g.broken then g else { g with blanks := g.blanks ++ [c] })
            (p.advance 1)
      else if isBreak c then
        let g' : Gap :=
          if g.broken then { g with more := g.more ++ p.lineBreak } else ⟨[], p.lineBreak, [], true⟩
        gap plainIndent fuel g' p.nextLine
      else some (g, p)

/-! ### Plain scalars -/

def endsPlain (inFlow : Bool) : Text → Bool
  | [] => true
  | c :: r =>
    isBlank c || isBreak c || (c == ':' && atGap r) ||
      (inFlow && (c == ',' || c == '?' || c == '[' || c == ']' || c == '\x7b' || c == '\x7d'))

def plainRun (inFlow : Bool) : Text → Text
  | [] => []
  | c :: r => if endsPlain inFlow (c :: r) then [] else c :: plainRun inFlow r

/-- Reads a plain scalar: its text, the place behind it, and whether a line break was the
last that was read. -/
def plain (inFlow : Bool) (indent : Nat) : Nat → Text → Gap → Place → Option (Text × Place × Bool)
  | 0, acc, g, p => some (acc, p, g.broken)
  | fuel + 1, acc, g, p =>
    if p.atDocument || p.rest.head? == some '#' then some (acc, p, g.broken)
    else
      let run := plainRun inFlow p.rest
      let behind := p.advance run.length
      let acc' := if run.isEmpty then acc else acc ++ g.text ++ run
      let g' := if run.isEmpty then g else Gap.none
      if behind.rest.isEmpty || !atGap behind.rest then some (acc', behind, g'.broken)
      else do
        let (g'', next) ← gap (some indent) (behind.rest.length + 1) g' behind
        if !inFlow && next.column < indent then some (acc', next, g''.broken)
        else plain inFlow indent fuel acc' g'' next

/-! ### Quoted scalars -/

def escaped? : Char → Option Nat
  | '0' => some 0
  | 'a' => some 7
  | 'b' => some 8
  | 't' => some 9
  | '\t' => some 9
  | 'n' => some 10
  | 'v' => some 11
  | 'f' => some 12
  | 'r' => some 13
  | 'e' => some 27
  | ' ' => some 0x20
  | '"' => some 0x22
  | '\'' => some 0x27
  | '\\' => some 0x5C
  | 'N' => some 0x85
  | '_' => some 0xA0
  | 'L' => some 0x2028
  | 'P' => some 0x2029
  | _ => none

/-- The number of hexadecimal digits of an escape by number. -/
def codeWidth? : Char → Option Nat
  | 'x' => some 2
  | 'u' => some 4
  | 'U' => some 8
  | _ => none

/-- The character that stands behind a backslash, and how many characters it takes. -/
def escape? : Text → Option (Char × Nat)
  | [] => none
  | c :: r =>
    match codeWidth? c with
    | some width => do
      let digits := r.take width
      let n ← if digits.length = width then Text.digits? 16 digits else none
      if n.isValidChar then some (Char.ofNat n, width + 1) else none
    | none => (escaped? c).map fun n => (Char.ofNat n, 1)

/-- What a run of characters inside quotes ends with. -/
inductive Stop where
  /-- White space or the closing quote. -/
  | pause
  /-- A line break that was escaped. -/
  | join

/-- Reads characters inside quotes up to white space or the closing quote. -/
def quotedRun (single : Bool) : Nat → Text → Place → Option (Text × Place × Stop)
  | 0, _, _ => none
  | fuel + 1, acc, p =>
    match p.rest with
    | [] => some (acc, p, .pause)
    | c :: r =>
      if isBlank c || isBreak c then some (acc, p, .pause)
      else if single && c == '\'' then
        if r.head? == some '\'' then quotedRun single fuel (acc ++ ['\'']) (p.advance 2)
        else some (acc, p, .pause)
      else if !single && c == '"' then some (acc, p, .pause)
      else if !single && c == '\\' then
        if r.head?.any isBreak then some (acc, (p.advance 1).nextLine, .join)
        else do
          let (x, n) ← escape? r
          quotedRun single fuel (acc ++ [x]) (p.advance (n + 1))
      else quotedRun single fuel (acc ++ [c]) (p.advance 1)

def quoted (single : Bool) : Nat → Text → Place → Option (Text × Place)
  | 0, _, _ => none
  | fuel + 1, acc, p =>
    if p.atDocument || p.rest.isEmpty then none
    else do
      let (acc', behind, stop) ← quotedRun single (p.rest.length + 1) acc p
      if behind.rest.head? == some (if single then '\'' else '"') then some (acc', behind.advance 1)
      else
        let begun := match stop with
          | .pause => Gap.none
          | .join => { Gap.none with broken := true }
        let (g, next) ← gap none (behind.rest.length + 1) begun behind
        quoted single fuel (acc' ++ g.text) next

end AbsoluteImports.Yaml
