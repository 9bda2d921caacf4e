import AbsoluteImports.Text.CombiningClass
import AbsoluteImports.Text.Decomposition

/-!
# Composed text

Many characters can be written in more than one way: whole, or as a character with marks behind
it. The composed form of a text is the same for all of them. It is found by taking every
character apart, putting marks in the order of their classes, and putting together what can be.
-/

namespace AbsoluteImports.Text

/-! ### Hangul -/

def syllableBase : Nat := 0xAC00
def leadBase : Nat := 0x1100
def vowelBase : Nat := 0x1161
/-- The code point before the first trailing consonant. -/
def trailBase : Nat := 0x11A7

def leadCount : Nat := 19
def vowelCount : Nat := 21
/-- The number of trailing consonants, with none as one of them. -/
def trailCount : Nat := 28

def syllableParts? (n : Nat) : Option (List Nat) :=
  if syllableBase ≤ n && n < syllableBase + leadCount * vowelCount * trailCount then
    let i := n - syllableBase
    let trail := i % trailCount
    some ([leadBase + i / (vowelCount * trailCount), vowelBase + i / trailCount % vowelCount] ++
      if trail = 0 then [] else [trailBase + trail])
  else none

/-- The syllable of two parts: a consonant and a vowel, or an open syllable and a consonant. -/
def syllable? (a b : Nat) : Option Nat :=
  let i := a - syllableBase
  if leadBase ≤ a && a < leadBase + leadCount && vowelBase ≤ b && b < vowelBase + vowelCount then
    some (syllableBase + ((a - leadBase) * vowelCount + (b - vowelBase)) * trailCount)
  else if syllableBase ≤ a && i < leadCount * vowelCount * trailCount && i % trailCount = 0 &&
      trailBase < b && b < trailBase + trailCount then
    some (a + (b - trailBase))
  else none

/-! ### Taking apart -/

/-- The characters that a character stands for. The first argument bounds the number of times
that a part is taken apart again. -/
def parts : Nat → Nat → List Nat
  | 0, n => [n]
  | depth + 1, n =>
    match syllableParts? n with
    | some ns => ns
    | none =>
      match decompositions.find? (·.whole == n) with
      | some d => parts depth d.first ++ d.second.toList
      | none => [n]

/-- The depth of the table of decompositions. -/
def decompositionDepth : Nat := 4

def takenApart (s : Text) : Text :=
  s.flatMap fun c => (parts decompositionDepth c.toNat).map Char.ofNat

/-- Puts a mark behind a text that is given backwards, before marks of greater classes. -/
def insertMark (c : Char) : Text → Text
  | [] => [c]
  | d :: ds => if combiningClass c < combiningClass d then d :: insertMark c ds else c :: d :: ds

def ordered (s : Text) : Text :=
  (s.foldl (fun back c => if combiningClass c = 0 then c :: back else insertMark c back) []).reverse

/-! ### Putting together -/

def compose? (a b : Char) : Option Char :=
  match syllable? a.toNat b.toNat with
  | some n => some (Char.ofNat n)
  | none =>
    (decompositions.find? fun d => d.composes && d.first == a.toNat && d.second == some b.toNat).map
      fun d => Char.ofNat d.whole

/-- Puts together a character with what follows it; `marks` are those, backwards, that stand
between and could not be put together with it. A mark of the same class, and any mark before a
character that is not one, is in the way. -/
def putTogether (start : Char) (marks : Text) : Text → Text
  | [] => start :: marks.reverse
  | c :: rest =>
    let free := marks.head?.all fun m => combiningClass m < combiningClass c
    match (if free then compose? start c else none) with
    | some whole => putTogether whole marks rest
    | none =>
      if combiningClass c = 0 then start :: marks.reverse ++ putTogether c [] rest
      else putTogether start (c :: marks) rest

/-- The text with everything put together that can be. Marks at the very start stay alone. -/
def joined : Text → Text
  | [] => []
  | c :: rest => if combiningClass c = 0 then putTogether c [] rest else c :: joined rest

/-- The composed form of a text. Below the first mark nothing can change. -/
def composed (s : Text) : Text :=
  if s.all fun c => c.toNat < 0x300 then s else joined (ordered (takenApart s))

end AbsoluteImports.Text
