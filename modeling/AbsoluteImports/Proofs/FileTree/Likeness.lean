import AbsoluteImports.Proofs.FileTree.Replacement
import Mathlib.Data.List.Nodup

/-!
# Trees that are alike

Two trees are alike when they have the same locations and differ in what their files hold alone.
Replacing a file keeps a tree alike: its temporary file is put in and taken away again. In trees
that are alike every path leads to the same place, directories list the same names, and replacing
a file comes to the same end.
-/

namespace AbsoluteImports

@[simp] theorem Entry.isDirectory_shape (e : Entry) : e.shape.isDirectory = e.isDirectory := by
  cases e <;> rfl

theorem Entry.isDirectory_of_shape {e e' : Entry} (h : e.shape = e'.shape) :
    e.isDirectory = e'.isDirectory := by
  rw [← e.isDirectory_shape, h, e'.isDirectory_shape]

namespace FileTree

variable {t u : FileTree} {m : Location}

/-! ### An entry that is put and taken away -/

theorem ext_entries (h : t.entries = u.entries) : t = u := by
  cases t
  cases u
  cases h
  rfl

theorem not_mem_of_none (h : t.get? m = none) : m ∉ t.entries.map Prod.fst := by
  have hroot : m ≠ [] := ne_root_of_none h
  simp only [get?, hroot, ↓reduceIte] at h
  intro hm
  obtain ⟨x, hx, rfl⟩ := List.mem_map.mp hm
  have hne := List.lookup_eq_none_iff.mp h x hx
  simp at hne

/-- No location comes twice, so an entry that is listed is the one that is found. -/
theorem lookup_of_mem {e : Entry} (h : (m, e) ∈ t.entries) : t.entries.lookup m = some e := by
  obtain ⟨before, rest, hes⟩ := List.append_of_mem h
  refine List.lookup_eq_some_iff.mpr ⟨before, rest, hes, ?_⟩
  intro y hy
  have hnodup := t.nodup
  rw [hes, List.map_append, List.nodup_append] at hnodup
  have hne := hnodup.2.2 y.1 (List.mem_map.mpr ⟨y, hy, rfl⟩) m (by simp)
  simpa using Ne.symm hne

theorem get?_of_mem {e : Entry} (hm : m ≠ []) (h : (m, e) ∈ t.entries) : t.get? m = some e := by
  simp only [get?, hm, ↓reduceIte]
  exact lookup_of_mem h

theorem replaceIn_of_not_mem {es : List (Location × Entry)} (h : m ∉ es.map Prod.fst) (e : Entry) :
    replaceIn m e es = es := by
  have hkeep : ∀ x ∈ es, (if x.1 = m then (m, e) else x) = x := by
    intro x hx
    have hne : x.1 ≠ m := fun he => h (List.mem_map.mpr ⟨x, hx, he⟩)
    rw [if_neg hne]
  rw [replaceIn, List.map_congr_left hkeep, List.map_id']

theorem filter_of_not_mem {es : List (Location × Entry)} (h : m ∉ es.map Prod.fst) :
    es.filter (·.1 ≠ m) = es := by
  refine List.filter_eq_self.mpr ?_
  intro x hx
  have hne : x.1 ≠ m := fun he => h (List.mem_map.mpr ⟨x, hx, he⟩)
  simpa using hne

theorem entries_set_of_none (h : t.get? m = none) (e : Entry) :
    (t.set m e).entries = t.entries ++ [(m, e)] := by
  simp only [set, not_mem_of_none h, ↓reduceDIte]

theorem set_set_of_none (h : t.get? m = none) (e e' : Entry) :
    (t.set m e).set m e' = t.set m e' := by
  have hm : m ∈ (t.set m e).entries.map Prod.fst := by simp [entries_set_of_none h]
  have hentries : ((t.set m e).set m e').entries = replaceIn m e' (t.set m e).entries := by
    rw [set, dif_pos hm]
  apply ext_entries
  rw [hentries, entries_set_of_none h, entries_set_of_none h, replaceIn, List.map_append,
    ← replaceIn, replaceIn_of_not_mem (not_mem_of_none h)]
  simp

theorem erase_set_of_none (h : t.get? m = none) (e : Entry) : (t.set m e).erase m = t := by
  have hentries : ((t.set m e).erase m).entries = (t.set m e).entries.filter (·.1 ≠ m) := rfl
  apply ext_entries
  rw [hentries, entries_set_of_none h, List.filter_append, filter_of_not_mem (not_mem_of_none h)]
  simp

/-! ### Likeness -/

/-- A named entry without what a file holds. -/
def shaped {α : Type} (x : α × Entry) : α × Entry := (x.1, x.2.shape)

/-- The same locations, with the same entries but for what files hold, listed in any order. -/
def Alike (t u : FileTree) : Prop := (t.entries.map shaped).Perm (u.entries.map shaped)

theorem Alike.refl (t : FileTree) : Alike t t := List.Perm.refl _

theorem Alike.symm (h : Alike t u) : Alike u t := List.Perm.symm h

theorem Alike.trans {v : FileTree} (h : Alike t u) (h' : Alike u v) : Alike t v :=
  List.Perm.trans h h'

theorem Alike.length_eq (h : Alike t u) : t.entries.length = u.entries.length := by
  have hlen := List.Perm.length_eq h
  rwa [List.length_map, List.length_map] at hlen

theorem Alike.entry {e : Entry} (h : Alike t u) (he : (m, e) ∈ t.entries) :
    ∃ e', (m, e') ∈ u.entries ∧ e'.shape = e.shape := by
  have hmem : (m, e.shape) ∈ u.entries.map shaped :=
    h.mem_iff.mp (List.mem_map.mpr ⟨(m, e), he, rfl⟩)
  obtain ⟨⟨k, e'⟩, hx, hpair⟩ := List.mem_map.mp hmem
  obtain ⟨hk, hshape⟩ := Prod.mk.inj hpair
  subst hk
  exact ⟨e', hx, hshape⟩

theorem Alike.get?_of_some {e : Entry} (h : Alike t u) (hm : m ≠ []) (he : t.get? m = some e) :
    ∃ e', u.get? m = some e' ∧ e'.shape = e.shape := by
  simp only [get?, hm, ↓reduceIte] at he ⊢
  obtain ⟨before, rest, hes, -⟩ := List.lookup_eq_some_iff.mp he
  obtain ⟨e', hx, hshape⟩ := h.entry (m := m) (e := e) (by simp [hes])
  exact ⟨e', lookup_of_mem hx, hshape⟩

theorem Alike.sameShape (h : Alike t u) : SameShape t u := by
  intro l
  by_cases hl : l = []
  · simp [hl]
  · cases ht : t.get? l with
    | some e =>
      obtain ⟨e', hu, hshape⟩ := h.get?_of_some hl ht
      rw [hu, Option.map_some, Option.map_some, hshape]
    | none =>
      cases hu : u.get? l with
      | none => rfl
      | some e =>
        obtain ⟨e', ht', -⟩ := h.symm.get?_of_some hl hu
        rw [ht] at ht'
        cases ht'

theorem alike_set_file {content content' : Bytes} {mode mode' : Nat}
    (h : t.get? m = some (.file content mode)) : Alike t (t.set m (.file content' mode')) := by
  have hroot : m ≠ [] := ne_root_of_get? (t := t) (by simp [h])
  simp only [get?, hroot, ↓reduceIte] at h
  have hm : m ∈ t.entries.map Prod.fst := by
    obtain ⟨before, rest, hes, -⟩ := List.lookup_eq_some_iff.mp h
    simp [hes]
  have hentries : (t.set m (.file content' mode')).entries =
      replaceIn m (.file content' mode') t.entries := by
    rw [set, dif_pos hm]
  have hsame : (t.set m (.file content' mode')).entries.map shaped = t.entries.map shaped := by
    rw [hentries, replaceIn, List.map_map]
    refine List.map_congr_left ?_
    intro x hx
    by_cases hxm : x.1 = m
    · -- no location comes twice, so this is the file itself
      have hfile : x.2 = .file content mode :=
        Option.some.inj ((lookup_of_mem (hxm ▸ hx)).symm.trans h)
      simp [shaped, hxm, hfile, Entry.shape]
    · simp [hxm]
  show (t.entries.map shaped).Perm ((t.set m (.file content' mode')).entries.map shaped)
  rw [hsame]

/-! ### Directories -/

theorem map_insertByName (x : Text × Entry) (ys : List (Text × Entry)) :
    (insertByName x ys).map shaped = insertByName (shaped x) (ys.map shaped) := by
  induction ys with
  | nil => rfl
  | cons y ys ih =>
    simp only [insertByName, List.map_cons]
    by_cases h : y.1 < x.1
    · have h' : (shaped y).1 < (shaped x).1 := h
      rw [if_pos h, if_pos h', List.map_cons, ih]
    · have h' : ¬(shaped y).1 < (shaped x).1 := h
      rw [if_neg h, if_neg h', List.map_cons, List.map_cons]

theorem map_foldr_insertByName (xs : List (Text × Entry)) :
    (xs.foldr insertByName []).map shaped = (xs.map shaped).foldr insertByName [] := by
  induction xs with
  | nil => rfl
  | cons x xs ih => rw [List.foldr_cons, map_insertByName, ih, List.map_cons, List.foldr_cons]

theorem map_children (t : FileTree) (l : Location) :
    (t.children l).map shaped = ((t.entries.map shaped).filterMap fun (location, entry) =>
      if location.dropLast = l then location.getLast?.map (·, entry) else none).foldr
        insertByName [] := by
  rw [children, map_foldr_insertByName, List.map_filterMap, List.filterMap_map]
  congr 2
  funext x
  by_cases h : x.1.dropLast = l
  · simp [shaped, h, Function.comp_def]
  · simp [shaped, h]

theorem insertByName_comm_of_lt {x y : Text × Entry} (hxy : x.1 < y.1)
    (zs : List (Text × Entry)) :
    insertByName y (insertByName x zs) = insertByName x (insertByName y zs) := by
  have hnot : ¬y.1 < x.1 := List.lt_asymm hxy
  induction zs with
  | nil => simp only [insertByName, hxy, hnot, ↓reduceIte]
  | cons z zs ih =>
    by_cases hzx : z.1 < x.1
    · have hzy : z.1 < y.1 := List.lt_trans hzx hxy
      simp only [insertByName, hzx, hzy, ↓reduceIte, ih]
    · by_cases hzy : z.1 < y.1
      · simp only [insertByName, hzx, hzy, hxy, ↓reduceIte]
      · simp only [insertByName, hzx, hzy, hxy, hnot, ↓reduceIte]

theorem insertByName_comm {x y : Text × Entry} (h : x.1 ≠ y.1) (zs : List (Text × Entry)) :
    insertByName y (insertByName x zs) = insertByName x (insertByName y zs) := by
  by_cases hxy : x.1 < y.1
  · exact insertByName_comm_of_lt hxy zs
  · have hyx : y.1 < x.1 := by
      by_contra hnot
      exact h (List.le_antisymm hnot hxy)
    exact (insertByName_comm_of_lt hyx zs).symm

theorem foldr_insertByName_congr {xs ys : List (Text × Entry)} (h : xs.Perm ys)
    (hx : (xs.map Prod.fst).Nodup) : xs.foldr insertByName [] = ys.foldr insertByName [] := by
  refine h.foldr_eq' ?_ []
  intro x hxm y hym zs
  by_cases hxy : x = y
  · rw [hxy]
  · refine insertByName_comm (fun hname => hxy ?_) zs
    exact List.inj_on_of_nodup_map hx hxm hym hname

theorem Alike.children (h : Alike t u) (l : Location) :
    (t.children l).map shaped = (u.children l).map shaped := by
  rw [map_children, map_children]
  refine foldr_insertByName_congr (List.Perm.filterMap _ h) (nodup_names l _ ?_)
  simpa only [List.map_map, Function.comp_def, shaped] using t.nodup

/-! ### Reading and replacing -/

theorem place_congr (h : SameShape t u) (cwd : Location) (path : Text) :
    t.place cwd path = u.place cwd path := by
  unfold place
  cases start cwd path with
  | error c => rfl
  | ok p =>
    obtain ⟨s, cs⟩ := p
    simp only [bind, Except.bind]
    cases cs.getLast? with
    | none => rfl
    | some c =>
      simp only [resolve_congr h]
      split
      · rfl
      · cases resolve u linkLimit s cs.dropLast with
        | error e => rfl
        | ok dir =>
          simp only
          cases hd : t.get? dir with
          | none => rw [h.none_of hd]
          | some e =>
            cases e with
            | directory => rw [h.directory_of hd]
            | link target => rw [h.link_of hd]
            | file content mode =>
              obtain ⟨content', mode', hu⟩ := h.file_of hd
              rw [hu]

theorem SameShape.set (h : SameShape t u) (hm : m ≠ []) (e : Entry) :
    SameShape (t.set m e) (u.set m e) := by
  intro l
  rw [get?_set _ hm, get?_set _ hm]
  split
  · rfl
  · exact h l

/-- A new file is refused in both trees for one reason, or put at one place in both. -/
theorem openNew_congr (h : SameShape t u) (cwd : Location) (path : Text) :
    (∃ f, t.openNew cwd path = .error f ∧ u.openNew cwd path = .error f) ∨
      ∃ l, t.openNew cwd path = .ok (l, t.set l (.file [] 0o600)) ∧
        u.openNew cwd path = .ok (l, u.set l (.file [] 0o600)) := by
  unfold openNew
  rw [place_congr h]
  cases u.place cwd path with
  | error c => exact .inl ⟨_, rfl, rfl⟩
  | ok l =>
    simp only
    cases ht : t.get? l with
    | none => exact .inr ⟨l, rfl, by rw [h.none_of ht]⟩
    | some e =>
      cases hu : u.get? l with
      | none => rw [h.symm.none_of hu] at ht; cases ht
      | some e' => exact .inl ⟨_, rfl, rfl⟩

theorem openTemp_congr (h : SameShape t u) (cwd : Location) (dir base : Text)
    (attempts tag : Nat) :
    (∃ f, t.openTemp cwd dir base attempts tag = .error f ∧
        u.openTemp cwd dir base attempts tag = .error f) ∨
      ∃ temp, t.openTemp cwd dir base attempts tag =
          .ok (temp, t.set temp.location (.file [] 0o600)) ∧
        u.openTemp cwd dir base attempts tag =
          .ok (temp, u.set temp.location (.file [] 0o600)) := by
  induction attempts generalizing tag with
  | zero =>
    simp only [openTemp]
    obtain ⟨f, ht, hu⟩ | ⟨l, ht, hu⟩ := openNew_congr h cwd (tempPath dir base tag)
    · exact .inl ⟨f, by rw [ht]; rfl, by rw [hu]; rfl⟩
    · exact .inr ⟨⟨_, l⟩, by rw [ht]; rfl, by rw [hu]; rfl⟩
  | succ n ih =>
    simp only [openTemp]
    obtain ⟨f, ht, hu⟩ | ⟨l, ht, hu⟩ := openNew_congr h cwd (tempPath dir base tag)
    · simp only [ht, hu]
      split
      · exact ih (tag + 1)
      · exact .inl ⟨f, rfl, rfl⟩
    · exact .inr ⟨⟨_, l⟩, by rw [ht], by rw [hu]⟩

theorem createTemp_congr (h : Alike t u) (cwd : Location) (path : Text) (tag : Nat) :
    (∃ f, t.createTemp cwd path tag = .error f ∧ u.createTemp cwd path tag = .error f) ∨
      ∃ temp, t.createTemp cwd path tag = .ok (temp, t.set temp.location (.file [] 0o600)) ∧
        u.createTemp cwd path tag = .ok (temp, u.set temp.location (.file [] 0o600)) := by
  simp only [createTemp, h.length_eq]
  split
  · exact .inl ⟨_, rfl, rfl⟩
  · exact openTemp_congr h.sameShape cwd _ _ _ _

theorem rename_eq_ok {cwd l l' : Location} {old new : Text} {e : Entry}
    (hold : t.place cwd old = .ok l) (hnew : t.place cwd new = .ok l') (he : t.get? l = some e)
    (hd : t.get? l' ≠ some .directory) :
    t.rename cwd old new = .ok (if l = l' then t else (t.erase l).set l' e) := by
  unfold rename
  simp only [hold, hnew, he]
  rw [apply_ite Except.ok]

theorem rename_congr (h : SameShape t u) (cwd : Location) (old new : Text) :
    (∃ f, t.rename cwd old new = .error f ∧ u.rename cwd old new = .error f) ∨
      ∃ t' u', t.rename cwd old new = .ok t' ∧ u.rename cwd old new = .ok u' := by
  have hold := place_congr h cwd old
  have hnew := place_congr h cwd new
  cases hl : u.place cwd old with
  | error c =>
    exact .inl ⟨⟨.rename old new, c⟩, by simp only [rename, hold, hl], by simp only [rename, hl]⟩
  | ok l =>
    cases hl' : u.place cwd new with
    | error c =>
      exact .inl ⟨⟨.rename old new, c⟩, by simp only [rename, hold, hnew, hl, hl'],
        by simp only [rename, hl, hl']⟩
    | ok l' =>
      rw [hl] at hold
      rw [hl'] at hnew
      cases ht : t.get? l with
      | none =>
        have hu := h.none_of ht
        exact .inl ⟨⟨.rename old new, .noEntry⟩, by simp only [rename, hold, hnew, ht],
          by simp only [rename, hl, hl', hu]⟩
      | some e =>
        cases hu : u.get? l with
        | none => rw [h.symm.none_of hu] at ht; cases ht
        | some e' =>
          -- a directory in the way is the only other reason to refuse
          by_cases hd : t.get? l' = some .directory
          · have hd' := h.directory_of hd
            exact .inl ⟨⟨.rename old new, .entryExists⟩, by simp only [rename, hold, hnew, ht, hd],
              by simp only [rename, hl, hl', hu, hd']⟩
          · have hd' : u.get? l' ≠ some .directory := fun hu' => hd (h.symm.directory_of hu')
            exact .inr ⟨_, _, rename_eq_ok hold hnew ht hd, rename_eq_ok hl hl' hu hd'⟩

/-- Replacing a file comes to the same end in trees that are alike, when the file has the same
mode in both. -/
theorem replaceFile_congr (h : Alike t u) {cwd : Location} {path : Text}
    (hmode : t.replacedMode cwd path = u.replacedMode cwd path) (content : Bytes) (tag : Nat) :
    (t.replaceFile cwd path content tag).1 = (u.replaceFile cwd path content tag).1 := by
  unfold replaceFile
  rw [hmode]
  cases u.replacedMode cwd path with
  | error f => rfl
  | ok mode =>
    simp only
    obtain ⟨f, ht, hu⟩ | ⟨temp, ht, hu⟩ := createTemp_congr h cwd path tag
    · rw [ht, hu]
    · simp only [ht, hu]
      have hroot : temp.location ≠ [] := ne_root_of_none (createTemp_ok ht).2.1
      have hready := ((h.sameShape.set hroot (.file [] 0o600)).set hroot
        (.file content 0o600)).set hroot (.file content mode)
      obtain ⟨f, ht', hu'⟩ | ⟨t', u', ht', hu'⟩ := rename_congr hready cwd temp.path path
      · rw [ht', hu']
      · rw [ht', hu']

theorem replaceFile_error_eq {cwd : Location} {path : Text} {content : Bytes} {tag : Nat}
    {e : ReplaceError} {left : FileTree}
    (h : t.replaceFile cwd path content tag = (.error e, left)) : left = t := by
  unfold replaceFile at h
  split at h
  · cases h; rfl
  · split at h
    · cases h; rfl
    · rename_i temp created hc
      obtain ⟨-, hn, rfl⟩ := createTemp_ok hc
      simp only [set_set_of_none hn] at h
      split at h
      · cases h
        exact erase_set_of_none hn _
      · cases h

theorem replaceFile_ok_eq {cwd l : Location} {path : Text} {content : Bytes} {tag : Nat}
    {e : Entry} {left : FileTree} (hp : t.place cwd path = .ok l) (he : t.get? l = some e)
    (h : t.replaceFile cwd path content tag = (.ok (), left)) :
    ∃ mode, t.replacedMode cwd path = .ok mode ∧ left = t.set l (.file content mode) := by
  unfold replaceFile at h
  split at h
  · cases h
  · rename_i mode hmode
    split at h
    · cases h
    · rename_i temp created hc
      obtain ⟨htp, hn, rfl⟩ := createTemp_ok hc
      have hlt : l ≠ temp.location := by
        intro hl
        rw [hl, hn] at he
        cases he
      simp only [set_set_of_none hn] at h
      split at h
      · cases h
      · rename_i renamed hr
        cases h
        have hroot : temp.location ≠ [] := ne_root_of_none hn
        have hwithin := within_set_of_none hn (.file content mode)
        obtain ⟨l1, l2, e1, hl1, hl2, he1, -, ht⟩ := rename_ok hr
        have h1 : temp.location = l1 := Except.ok.inj ((place_mono hwithin htp).symm.trans hl1)
        have h2 : l = l2 := Except.ok.inj ((place_mono hwithin hp).symm.trans hl2)
        subst h1 h2
        rw [get?_set _ hroot, if_pos rfl] at he1
        cases he1
        rw [if_neg (Ne.symm hlt), erase_set_of_none hn] at ht
        exact ⟨mode, hmode, ht⟩

end FileTree

end AbsoluteImports
