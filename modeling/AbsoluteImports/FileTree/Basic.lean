import AbsoluteImports.Text.Utf8

/-!
# File trees

A file tree maps locations to entries. A location is the list of names on the way from
the root directory, so that it needs no cleaning; the root directory is always there. No
location occurs twice: the tree is a finite map, and its view is `get?`.

A tree is less than a file system. Permission bits are kept and handed on, but they refuse
nothing. There are no entries besides files, directories and symbolic links, no two names of one
file, and no names whose bytes are not UTF-8. What else can go wrong with a file is left to
`FileAccess`, which may fail for reasons of its own.
-/

namespace AbsoluteImports

/-- The names on the way from the root directory to an entry. -/
abbrev Location := List Text

inductive Entry where
  /-- A regular file with its content and its permission bits. -/
  | file (content : Bytes) (mode : Nat)
  | directory
  /-- A symbolic link to a path. -/
  | link (target : Text)
  deriving DecidableEq, Repr

def Entry.isDirectory : Entry → Bool
  | directory => true
  | _ => false

/-- The permission bits of an entry; those of a directory are always the same. -/
def Entry.mode : Entry → Nat
  | file _ mode => mode
  | _ => 0o755

/-- A finite map from locations to entries. -/
structure FileTree where
  entries : List (Location × Entry)
  nodup : (entries.map Prod.fst).Nodup

namespace FileTree

def empty : FileTree := ⟨[], List.nodup_nil⟩

def get? (t : FileTree) (l : Location) : Option Entry :=
  if l = [] then some .directory else t.entries.lookup l

/-! ### Changing one entry -/

def replaceIn (l : Location) (e : Entry) (es : List (Location × Entry)) : List (Location × Entry) :=
  es.map fun x => if x.1 = l then (l, e) else x

theorem map_fst_replaceIn (l : Location) (e : Entry) (es : List (Location × Entry)) :
    (replaceIn l e es).map Prod.fst = es.map Prod.fst := by
  induction es with
  | nil => rfl
  | cons x xs ih =>
    have hx : (if x.1 = l then (l, e) else x).1 = x.1 := by
      by_cases h : x.1 = l
      · simp [h]
      · simp [h]
    simp only [replaceIn, List.map_cons] at ih ⊢
    rw [hx, ih]

/-- The tree with an entry put at a location, in place of the one that was there. -/
def set (t : FileTree) (l : Location) (e : Entry) : FileTree :=
  if h : l ∈ t.entries.map Prod.fst then
    ⟨replaceIn l e t.entries, by rw [map_fst_replaceIn]; exact t.nodup⟩
  else
    ⟨t.entries ++ [(l, e)], by
      rw [List.map_append, List.nodup_append]
      refine ⟨t.nodup, by simp, ?_⟩
      intro a ha b hb
      simp only [List.map_cons, List.map_nil, List.mem_singleton] at hb
      intro hab
      exact h (by rw [← hb, ← hab]; exact ha)⟩

def erase (t : FileTree) (l : Location) : FileTree :=
  ⟨t.entries.filter (·.1 ≠ l), t.nodup.sublist (List.Sublist.map _ List.filter_sublist)⟩

def eraseBelow (t : FileTree) (l : Location) : FileTree :=
  ⟨t.entries.filter fun x => !l.isPrefixOf x.1,
    t.nodup.sublist (List.Sublist.map _ List.filter_sublist)⟩

/-! ### Directories -/

/-- Puts a named entry into a list that is ordered by name. -/
def insertByName (x : Text × Entry) : List (Text × Entry) → List (Text × Entry)
  | [] => [x]
  | y :: ys => if y.1 < x.1 then y :: insertByName x ys else x :: y :: ys

def children (t : FileTree) (l : Location) : List (Text × Entry) :=
  let named := t.entries.filterMap fun (location, entry) =>
    if location.dropLast = l then location.getLast?.map (·, entry) else none
  named.foldr insertByName []

/-- The tree with directories put at every location on the way to `l` where there is
nothing yet. -/
def makeParents (t : FileTree) (l : Location) : FileTree :=
  (List.range l.length).foldl
    (fun t k => if (t.get? (l.take k)).isSome then t else t.set (l.take k) .directory) t

end FileTree

end AbsoluteImports
