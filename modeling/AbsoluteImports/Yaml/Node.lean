import AbsoluteImports.Yaml.Layout

/-!
# YAML nodes

The first document of a text as a tree of scalars, lists and mappings. What stands behind the
end of the document is looked at only as far as its first tokens.
-/

namespace AbsoluteImports.Yaml

inductive Node where
  /-- A scalar; a plain one may stand for something else than its text. -/
  | scalar (text : Text) (plain : Bool)
  | list (items : List Node)
  | map (pairs : List (Node × Node))
  deriving Repr

def Node.missing : Node := .scalar [] true

/-- What may stand at a place where a value is expected. -/
structure Expected where
  /-- A block collection. -/
  block : Bool
  /-- A block list that is not indented. -/
  flatList : Bool

def Expected.inFlow : Expected := ⟨false, false⟩

def Expected.item : Expected := ⟨true, false⟩

def Expected.pair : Expected := ⟨true, true⟩

/-- A parser of part of a document: what it read, and the text behind it. -/
abbrev Reader (α : Type) := Layout → Option (α × Layout)

/-- Reads a value unless one of some tokens stands here, where it is left out. -/
def optional (ends : List Token) (read : Reader Node) : Reader Node := fun l => do
  let (t, l) ← l.peek
  if ends.contains t then some (.missing, l) else read l

mutual

/-- Reads a value. The first argument bounds the number of steps. -/
def node (e : Expected) : Nat → Reader Node
  | 0, _ => none
  | fuel + 1, l => do
    let (t, l) ← l.peek
    match t with
    | .item => if e.flatList then (flatItems fuel l).map fun (ns, l) => (.list ns, l) else none
    | .scalar text plain => some (.scalar text plain, l.pop)
    | .flowListStart => (flowItems true fuel l.pop).map fun (ns, l) => (.list ns, l)
    | .flowMapStart => (flowPairs true fuel l.pop).map fun (ps, l) => (.map ps, l)
    | .listStart =>
      if e.block then (blockItems fuel l.pop).map fun (ns, l) => (.list ns, l) else none
    | .mapStart => if e.block then (blockPairs fuel l.pop).map fun (ps, l) => (.map ps, l) else none
    | _ => none

def blockItems : Nat → Reader (List Node)
  | 0, _ => none
  | fuel + 1, l => do
    let (t, l) ← l.peek
    match t with
    | .item => do
      let (n, l) ← optional [.item, .blockEnd] (node .item fuel) l.pop
      let (ns, l) ← blockItems fuel l
      some (n :: ns, l)
    | .blockEnd => some ([], l.pop)
    | _ => none

/-- Reads the items of a block list that is not indented, up to what is no item. -/
def flatItems : Nat → Reader (List Node)
  | 0, _ => none
  | fuel + 1, l => do
    let (t, l) ← l.peek
    match t with
    | .item => do
      let (n, l) ← optional [.item, .key, .value, .blockEnd] (node .item fuel) l.pop
      let (ns, l) ← flatItems fuel l
      some (n :: ns, l)
    | _ => some ([], l)

def blockPairs : Nat → Reader (List (Node × Node))
  | 0, _ => none
  | fuel + 1, l => do
    let (t, l) ← l.peek
    match t with
    | .key => do
      let (k, l) ← optional [.key, .value, .blockEnd] (node .pair fuel) l.pop
      let (t, l) ← l.peek
      let (v, l) ← if t = .value then optional [.key, .value, .blockEnd] (node .pair fuel) l.pop
        else some (.missing, l)
      let (ps, l) ← blockPairs fuel l
      some ((k, v) :: ps, l)
    | .blockEnd => some ([], l.pop)
    | _ => none

def flowItems (first : Bool) : Nat → Reader (List Node)
  | 0, _ => none
  | fuel + 1, l => do
    let (t, l) ← l.peek
    if t = .flowListEnd then some ([], l.pop)
    else
      let l ← if first then some l else if t = .comma then some l.pop else none
      let (t, l) ← l.peek
      match t with
      | .flowListEnd => some ([], l.pop)
      | .key => do
        let (k, l) ← optional [.value, .comma, .flowListEnd] (node .inFlow fuel) l.pop
        let (t, l) ← l.peek
        let (v, l) ← if t = .value then optional [.comma, .flowListEnd] (node .inFlow fuel) l.pop
          else some (.missing, l)
        let (ns, l) ← flowItems false fuel l
        some (.map [(k, v)] :: ns, l)
      | _ => do
        let (n, l) ← node .inFlow fuel l
        let (ns, l) ← flowItems false fuel l
        some (n :: ns, l)

def flowPairs (first : Bool) : Nat → Reader (List (Node × Node))
  | 0, _ => none
  | fuel + 1, l => do
    let (t, l) ← l.peek
    if t = .flowMapEnd then some ([], l.pop)
    else
      let l ← if first then some l else if t = .comma then some l.pop else none
      let (t, l) ← l.peek
      match t with
      | .flowMapEnd => some ([], l.pop)
      | .key => do
        let (k, l) ← optional [.value, .comma, .flowMapEnd] (node .inFlow fuel) l.pop
        let (t, l) ← l.peek
        let (v, l) ← if t = .value then optional [.comma, .flowMapEnd] (node .inFlow fuel) l.pop
          else some (.missing, l)
        let (ps, l) ← flowPairs false fuel l
        some ((k, v) :: ps, l)
      | _ => do
        let (k, l) ← node .inFlow fuel l
        let (ps, l) ← flowPairs false fuel l
        some ((k, .missing) :: ps, l)

end

/-- The first document of a text; a text without a document is refused. -/
def firstDocument? (s : Text) : Option Node := do
  let fuel := 8 * s.length + 16
  let (t, l) ← (Layout.start s).peek
  let (root, l) ← match t with
    | .streamEnd => none
    | .documentStart => optional [.documentStart, .documentEnd, .streamEnd] (node .item fuel) l.pop
    | _ => node .item fuel l
  let _ ← l.peek
  some root

end AbsoluteImports.Yaml
