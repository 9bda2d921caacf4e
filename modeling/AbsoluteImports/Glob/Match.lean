import AbsoluteImports.Glob.Pattern

/-!
# Matching a name

A name is a path with slashes. `?` and `*` stay within one component, a class may take
a slash, and `**` followed by a slash at the start of a component takes any number of
components. Matching walks pattern and name side by side and keeps at most two places to
go back to: behind the last star, and behind the last `**/`.

A fault in a pattern can show only here, because braces are closed without regard to
classes; then the verdict is neither yes nor no.
-/

namespace AbsoluteImports.Glob

/-- The answer to whether a pattern matches a name. -/
inductive Verdict where
  | matched
  | unmatched
  /-- The pattern turned out to be malformed. -/
  | malformed
  deriving DecidableEq, Repr

def Verdict.of (b : Bool) : Verdict := if b then matched else unmatched

/-- No match, or a malformed pattern if what is left of it is not well formed. -/
def Verdict.noMatch (rest : Text) : Verdict := if isValid rest then unmatched else malformed

/-- The first verdict that is not a plain no; the last one decides. -/
def firstMatch (f : α → Verdict) : List α → Verdict
  | [] => .unmatched
  | [a] => f a
  | a :: rest => match f a with
    | .unmatched => firstMatch f rest
    | v => v

/-! ### The end of the name -/

/-- Whether the rest of a pattern takes nothing more. The first argument bounds how often
braces are opened; the length of the pattern is enough. -/
def takesNothing : Nat → Text → Verdict
  | 0, rest => .noMatch rest
  | fuel + 1, rest =>
    if rest.isEmpty || rest = "*".toList || rest = "**".toList || rest = "/**".toList ||
        rest = "**/".toList || rest = "/**/".toList then .matched
    else match rest with
      | '{' :: r =>
        match closeBrace? 0 r with
        | some (inside, after) =>
          firstMatch (fun alternative => takesNothing fuel (alternative ++ after))
            (alternatives 0 inside)
        | none => .malformed
      | _ => .noMatch rest

/-! ### Classes -/

/-- What looking for a character in a class found: whether it is in, and where in the
pattern the search stopped. -/
structure ClassSearch where
  found : Bool
  rest : Text

/-- Looks for `x` among the characters and ranges of a class, up to its end. The first
argument is the character that a following hyphen would make the start of a range. -/
def searchClass (x : Char) : Option Char → Text → ClassSearch
  | _, [] => ⟨false, []⟩
  | some _, '-' :: ']' :: r => ⟨x == '-', ']' :: r⟩
  | some a, '-' :: '\\' :: e :: r =>
    if a ≤ x && x ≤ e then ⟨true, r⟩ else searchClass x none r
  | some a, '-' :: d :: r => if a ≤ x && x ≤ d then ⟨true, r⟩ else searchClass x none r
  | _, '\\' :: d :: r => if d = x then ⟨true, r⟩ else searchClass x (some d) r
  | _, c :: r =>
    if c = ']' then ⟨false, c :: r⟩
    else if c = x then ⟨true, r⟩
    else searchClass x (some c) r

/-- What follows the first unescaped closing bracket. -/
def afterClass? : Text → Option Text
  | [] => none
  | ['\\'] => none
  | '\\' :: _ :: r => afterClass? r
  | c :: r => if c = ']' then some r else afterClass? r

/-! ### The walk -/

/-- A place to go back to, in the pattern and in the name. -/
structure Return where
  pattern : Nat
  name : Nat

/-- Where a walk stands. -/
structure Walk where
  /-- The pattern, with the braces met so far replaced by one alternative each. -/
  pattern : Text
  /-- Place in the pattern. -/
  p : Nat
  /-- Place in the name. -/
  n : Nat
  /-- Whether `**` would stand at the start of a component. -/
  segmentStart : Bool
  /-- Behind the last star. -/
  star : Option Return
  /-- Behind the last `**/`. -/
  doubleStar : Option Return

/-- What one step of a walk leads to. -/
inductive Step where
  | done (v : Verdict)
  | next (w : Walk)
  /-- Braces: the walk goes on with each alternative in turn. -/
  | choose (ws : List Walk)

/-- Goes back behind the last star, letting it take one more character, or else behind
the last `**/`, letting it take one more component. -/
def Walk.goBack (name : Text) (w : Walk) : Step :=
  let onward := fun (_ : Unit) =>
    match w.doubleStar with
    | some b =>
      match (name.drop b.name).dropWhile (· != '/') with
      | _ :: r =>
        let n := name.length - r.length
        .next { w with
          p := b.pattern, n := n, segmentStart := true
          doubleStar := some ⟨b.pattern, n⟩ }
      | [] => .done (.noMatch (w.pattern.drop w.p))
    | none => .done (.noMatch (w.pattern.drop w.p))
  match w.star with
  | some b =>
    if (name.drop b.name).head?.any (· != '/') then
      .next { w with
        p := b.pattern, n := b.name + 1, segmentStart := false
        star := some ⟨b.pattern, b.name + 1⟩ }
    else onward ()
  | none => onward ()

/-- Compares the name's character `x` with a plain character `c` of the pattern at place
`p`. -/
def Walk.plain (name : Text) (w : Walk) (x c : Char) (p : Nat) : Step :=
  if c = x then .next { w with p := p + 1, n := w.n + 1, segmentStart := c == '/' }
  else
    let escaped := p != 0 && w.pattern[p - 1]? == some '\\'
    { w with p := if escaped then p - 1 else p }.goBack name

/-- Compares the name's character `x` with a class whose content starts at `body`. -/
def Walk.inClass (name : Text) (w : Walk) (x : Char) (body : Text) : Step :=
  let place := fun (rest : Text) => w.pattern.length - rest.length
  let negated := body.head? == some '!' || body.head? == some '^'
  let content := if negated then body.drop 1 else body
  match content with
  | [] => .done .malformed
  | ']' :: _ => .done .malformed
  | _ =>
    let found := searchClass x none content
    if found.found == negated then
      if found.rest.isEmpty then .done .malformed
      else { w with p := place found.rest, segmentStart := false }.goBack name
    else match afterClass? found.rest with
      | some rest => .next { w with p := place rest, n := w.n + 1, segmentStart := false }
      | none => .done .malformed

/-- The walks that go on with each alternative of braces whose inside starts at `body`. -/
def Walk.inBraces (w : Walk) (body : Text) : Step :=
  match closeBrace? 0 body with
  | some (inside, after) =>
    .choose ((alternatives 0 inside).map fun alternative =>
      { w with pattern := w.pattern.take w.p ++ alternative ++ after, segmentStart := true })
  | none => .done .malformed

def Walk.step (name : Text) (w : Walk) : Step :=
  match name.drop w.n with
  | [] =>
    let rest := w.pattern.drop w.p
    .done (takesNothing (rest.length + 1) rest)
  | x :: _ =>
    let star := fun (p : Nat) => { w with p := p, segmentStart := false, star := some ⟨p, w.n⟩ }
    match w.pattern.drop w.p with
    | [] => w.goBack name
    | '*' :: '*' :: r =>
      match w.segmentStart, r with
      | true, [] => .done .matched
      | true, '/' :: _ =>
        .next { w with p := w.p + 3, doubleStar := some ⟨w.p + 3, w.n⟩, star := none }
      | _, _ => .next (star (w.p + 2))
    | '*' :: _ => .next (star (w.p + 1))
    | '?' :: _ =>
      if x = '/' then { w with segmentStart := false }.goBack name
      else .next { w with p := w.p + 1, n := w.n + 1, segmentStart := false }
    | '[' :: r => w.inClass name x r
    | '{' :: r => w.inBraces r
    | ['\\'] => .done .malformed
    | '\\' :: c :: _ => w.plain name x c (w.p + 1)
    | c :: _ => w.plain name x c w.p

/-- Follows a walk for at most a number of steps. -/
def Walk.run (name : Text) : Nat → Walk → Verdict
  | 0, w => .noMatch (w.pattern.drop w.p)
  | fuel + 1, w =>
    match w.step name with
    | .done v => v
    | .next w' => run name fuel w'
    | .choose ws => firstMatch (run name fuel) ws

/-- More steps than any walk makes: each brace is opened once, each of the two places to
go back to moves forward at most once per character of pattern and name, and between two
returns the pattern is walked through once. -/
def stepLimit (pattern name : Text) : Nat :=
  Nat.pow (pattern.length + 2) 4 * Nat.pow (name.length + 2) 2

/-- Whether a pattern matches a name. -/
def check (pattern name : Text) : Verdict :=
  Walk.run name (stepLimit pattern name) ⟨pattern, 0, 0, true, none, none⟩

end AbsoluteImports.Glob
