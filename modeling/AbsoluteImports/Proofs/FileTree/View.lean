import AbsoluteImports.FileTree.Basic

/-!
# The view of a file tree

`get?` is all that a later answer can show of a tree. Changing one entry changes the view at
one location, and the names of a directory's entries are all different. Two trees have one
shape when they differ in the contents and modes of files alone.
-/

namespace AbsoluteImports

def Entry.shape : Entry → Entry
  | .file _ _ => .file [] 0
  | .directory => .directory
  | .link target => .link target

def Entry.isLink : Entry → Bool
  | .link _ => true
  | _ => false

namespace FileTree

/-! ### One entry -/

@[simp] theorem get?_root (t : FileTree) : t.get? [] = some .directory := by
  simp [get?]

theorem ne_root_of_get? {t : FileTree} {l : Location} (h : t.get? l ≠ some .directory) :
    l ≠ [] := by
  intro hl
  rw [hl] at h
  exact h (get?_root t)

theorem ne_root_of_none {t : FileTree} {l : Location} (h : t.get? l = none) : l ≠ [] :=
  ne_root_of_get? (t := t) (by simp [h])

theorem lookup_replaceIn (l : Location) (e : Entry) (es : List (Location × Entry))
    (l' : Location) :
    (replaceIn l e es).lookup l' =
      if l' = l ∧ l ∈ es.map Prod.fst then some e else es.lookup l' := by
  induction es with
  | nil => simp [replaceIn]
  | cons x xs ih =>
    obtain ⟨k, v⟩ := x
    simp only [replaceIn] at ih
    simp only [replaceIn, List.map_cons, List.mem_cons]
    by_cases hk : k = l
    · subst hk
      simp only [↓reduceIte, List.lookup_cons, true_or, and_true, ih]
      by_cases hl : l' = k
      · simp [hl]
      · have hne : (l' == k) = false := beq_eq_false_iff_ne.mpr hl
        simp [hl, hne]
    · simp only [hk, ↓reduceIte, List.lookup_cons, ih]
      by_cases hl : l' = k
      · simp [hl, hk]
      · have hne : (l' == k) = false := beq_eq_false_iff_ne.mpr hl
        have hlk : ¬l = k := fun h => hk h.symm
        simp only [hne, hlk, false_or]

theorem lookup_filter (keep : Location → Bool) (es : List (Location × Entry)) (l' : Location) :
    (es.filter fun x => keep x.1).lookup l' = if keep l' then es.lookup l' else none := by
  induction es with
  | nil => simp
  | cons x xs ih =>
    obtain ⟨k, v⟩ := x
    by_cases hl : l' = k
    · subst hl
      cases hkeep : keep l' with
      | true => simp [hkeep]
      | false => simp [hkeep, ih]
    · have hne : (l' == k) = false := beq_eq_false_iff_ne.mpr hl
      cases hkeep : keep k with
      | true => simp [hkeep, List.lookup_cons, hne, ih]
      | false => simp [hkeep, List.lookup_cons, hne, ih]

theorem lookup_filter_ne (l l' : Location) (es : List (Location × Entry)) :
    (es.filter (·.1 ≠ l)).lookup l' = if l' = l then none else es.lookup l' := by
  rw [lookup_filter fun m => decide (m ≠ l)]
  by_cases h : l' = l
  · simp [h]
  · simp [h]

theorem get?_set (t : FileTree) {l : Location} (hl : l ≠ []) (e : Entry) (l' : Location) :
    (t.set l e).get? l' = if l' = l then some e else t.get? l' := by
  by_cases hr : l' = []
  · have hne : l' ≠ l := fun h => hl (h ▸ hr)
    simp [hr, get?, Ne.symm hl]
  · by_cases hm : l ∈ t.entries.map Prod.fst
    · simp only [get?, set, hm, ↓reduceDIte, hr, ↓reduceIte, lookup_replaceIn, and_true]
    · simp only [get?, set, hm, ↓reduceDIte, hr, ↓reduceIte, List.lookup_append]
      by_cases h : l' = l
      · have hnone : t.entries.lookup l = none := by
          rw [List.lookup_eq_none_iff]
          intro x hx
          have hne : l ≠ x.1 := fun he => hm (List.mem_map.mpr ⟨x, hx, he.symm⟩)
          simpa using hne
        simp [h, hnone]
      · have hne : (l' == l) = false := by simpa using h
        simp [h, List.lookup_cons, hne]

theorem get?_erase (t : FileTree) {l : Location} (hl : l ≠ []) (l' : Location) :
    (t.erase l).get? l' = if l' = l then none else t.get? l' := by
  by_cases hr : l' = []
  · simp [hr, get?, Ne.symm hl]
  · simp only [get?, erase, hr, ↓reduceIte, lookup_filter_ne]

theorem get?_eraseBelow (t : FileTree) {l : Location} (hl : l ≠ []) (l' : Location) :
    (t.eraseBelow l).get? l' = if l <+: l' then none else t.get? l' := by
  by_cases hr : l' = []
  · simp [hr, get?, hl]
  · have hview := lookup_filter (fun m => !l.isPrefixOf m) t.entries l'
    simp only [get?, eraseBelow, hr, ↓reduceIte]
    rw [hview]
    by_cases h : l <+: l'
    · simp [h, List.isPrefixOf_iff_prefix.mpr h]
    · have hnot : l.isPrefixOf l' = false := by
        rw [← Bool.not_eq_true, List.isPrefixOf_iff_prefix]
        exact h
      simp [h, hnot]

/-! ### Directories -/

theorem get?_makeDirectory (t : FileTree) (l l' : Location) :
    (if (t.get? l).isSome then t else t.set l .directory).get? l' =
      (t.get? l').or (if l' = l then some .directory else none) := by
  by_cases hl : l' = l
  · subst hl
    cases he : t.get? l' with
    | some e => simp [he]
    | none => simp [get?_set t (ne_root_of_none he)]
  · cases he : t.get? l with
    | some e => simp [hl]
    | none => simp [get?_set t (ne_root_of_none he), hl]

theorem get?_makeParents (t : FileTree) (l l' : Location) :
    (t.makeParents l).get? l' =
      (t.get? l').or (if ∃ k < l.length, l' = l.take k then some .directory else none) := by
  unfold makeParents
  induction l.length with
  | zero => simp
  | succ n ih =>
    have hlast : (∃ k < n + 1, l' = l.take k) ↔ (∃ k < n, l' = l.take k) ∨ l' = l.take n := by
      simp only [Nat.lt_succ_iff_lt_or_eq, or_and_right, exists_or, exists_eq_left]
    rw [List.range_succ, List.foldl_append, List.foldl_cons, List.foldl_nil, get?_makeDirectory, ih,
      Option.or_assoc]
    simp only [hlast]
    congr 1
    by_cases hk : ∃ k < n, l' = l.take k
    · simp only [hk, true_or, ↓reduceIte, Option.some_or]
    · simp only [hk, false_or, ↓reduceIte, Option.none_or]

theorem insertByName_perm (x : Text × Entry) (ys : List (Text × Entry)) :
    (insertByName x ys).Perm (x :: ys) := by
  induction ys with
  | nil => exact List.Perm.refl _
  | cons y ys ih =>
    simp only [insertByName]
    split
    · exact (ih.cons y).trans (List.Perm.swap x y ys)
    · exact List.Perm.refl _

theorem foldr_insertByName_perm (xs : List (Text × Entry)) :
    (xs.foldr insertByName []).Perm xs := by
  induction xs with
  | nil => exact List.Perm.refl _
  | cons x xs ih => exact (insertByName_perm x _).trans (ih.cons x)

theorem eq_append_of_getLast? {l k : Location} {name : Text} (hd : k.dropLast = l)
    (hn : k.getLast? = some name) : k = l ++ [name] := by
  obtain ⟨ks, rfl⟩ := List.getLast?_eq_some_iff.mp hn
  rw [List.dropLast_concat] at hd
  rw [hd]

theorem mem_children {t : FileTree} {l : Location} {name : Text} {e : Entry} :
    (name, e) ∈ t.children l ↔ (l ++ [name], e) ∈ t.entries := by
  simp only [children, (foldr_insertByName_perm _).mem_iff, List.mem_filterMap]
  constructor
  · rintro ⟨⟨k, v⟩, hk, h⟩
    by_cases hd : k.dropLast = l
    · simp only [hd, ↓reduceIte, Option.map_eq_some_iff, Prod.mk.injEq] at h
      obtain ⟨n, hn, rfl, rfl⟩ := h
      rw [← eq_append_of_getLast? hd hn]
      exact hk
    · simp [hd] at h
  · intro h
    exact ⟨(l ++ [name], e), h, by simp⟩

theorem nodup_names (l : Location) (es : List (Location × Entry))
    (h : (es.map Prod.fst).Nodup) :
    ((es.filterMap fun (location, entry) =>
      if location.dropLast = l then location.getLast?.map (·, entry) else none).map
        Prod.fst).Nodup := by
  induction es with
  | nil => simp
  | cons x xs ih =>
    obtain ⟨k, v⟩ := x
    rw [List.map_cons, List.nodup_cons] at h
    have ht := ih h.2
    by_cases hd : k.dropLast = l
    · cases hn : k.getLast? with
      | none => simpa [List.filterMap_cons, hd, hn] using ht
      | some name =>
        simp only [List.filterMap_cons, hd, ↓reduceIte, hn, Option.map_some, List.map_cons,
          List.nodup_cons]
        refine ⟨?_, ht⟩
        -- a second entry with this name would stand at the same location
        intro hm
        obtain ⟨⟨n, e⟩, hne, rfl⟩ := List.mem_map.mp hm
        obtain ⟨⟨k', v'⟩, hk', h'⟩ := List.mem_filterMap.mp hne
        by_cases hd' : k'.dropLast = l
        · simp only [hd', ↓reduceIte, Option.map_eq_some_iff, Prod.mk.injEq] at h'
          obtain ⟨n', hn', rfl, rfl⟩ := h'
          have hkk : k = k' := (eq_append_of_getLast? hd hn).trans
            (eq_append_of_getLast? hd' hn').symm
          exact h.1 (List.mem_map.mpr ⟨(k', v'), hk', hkk.symm⟩)
        · simp [hd'] at h'
    · simpa [List.filterMap_cons, hd] using ht

theorem nodup_children (t : FileTree) (l : Location) : ((t.children l).map Prod.fst).Nodup :=
  ((foldr_insertByName_perm _).map Prod.fst).nodup_iff.mpr (nodup_names l t.entries t.nodup)

/-! ### Shape -/

/-- No entry is a symbolic link. -/
def LinkFree (t : FileTree) : Prop := ∀ l target, t.get? l ≠ some (.link target)

theorem linkFree_of_entries {t : FileTree} (h : ∀ x ∈ t.entries, x.2.isLink = false) :
    t.LinkFree := by
  intro l target hl
  by_cases hr : l = []
  · rw [hr, get?_root] at hl
    cases hl
  · simp only [get?, hr, ↓reduceIte] at hl
    obtain ⟨before, rest, hes, -⟩ := List.lookup_eq_some_iff.mp hl
    have hlink := h (l, .link target) (by simp [hes])
    simp [Entry.isLink] at hlink

/-- The same entries, but for the contents and modes of files. -/
def SameShape (t u : FileTree) : Prop :=
  ∀ l, (t.get? l).map Entry.shape = (u.get? l).map Entry.shape

namespace SameShape

variable {t u v : FileTree} {l : Location}

theorem of_view (h : ∀ l, u.get? l = t.get? l) : SameShape t u := by
  intro l
  rw [h l]

theorem trans (h : SameShape t u) (h' : SameShape u v) : SameShape t v :=
  fun l => (h l).trans (h' l)

theorem symm (h : SameShape t u) : SameShape u t := fun l => (h l).symm

theorem none_of (h : SameShape t u) (ht : t.get? l = none) : u.get? l = none := by
  have hl := h l
  rw [ht] at hl
  simpa using hl.symm

theorem directory_of (h : SameShape t u) (ht : t.get? l = some .directory) :
    u.get? l = some .directory := by
  have hl := h l
  rw [ht] at hl
  obtain ⟨e, he, hs⟩ := Option.map_eq_some_iff.mp hl.symm
  cases e with
  | directory => exact he
  | file content mode => simp [Entry.shape] at hs
  | link target => simp [Entry.shape] at hs

theorem link_of {target : Text} (h : SameShape t u) (ht : t.get? l = some (.link target)) :
    u.get? l = some (.link target) := by
  have hl := h l
  rw [ht] at hl
  obtain ⟨e, he, hs⟩ := Option.map_eq_some_iff.mp hl.symm
  cases e with
  | directory => simp [Entry.shape] at hs
  | file content mode => simp [Entry.shape] at hs
  | link target' =>
    have ht' : target' = target := Entry.link.inj hs
    rw [he, ht']

theorem file_of {content : Bytes} {mode : Nat} (h : SameShape t u)
    (ht : t.get? l = some (.file content mode)) :
    ∃ content' mode', u.get? l = some (.file content' mode') := by
  have hl := h l
  rw [ht] at hl
  obtain ⟨e, he, hs⟩ := Option.map_eq_some_iff.mp hl.symm
  cases e with
  | directory => simp [Entry.shape] at hs
  | file content' mode' => exact ⟨content', mode', he⟩
  | link target => simp [Entry.shape] at hs

theorem linkFree (h : SameShape t u) (ht : t.LinkFree) : u.LinkFree :=
  fun l target hu => ht l target (h.symm.link_of hu)

end SameShape

end FileTree

end AbsoluteImports
