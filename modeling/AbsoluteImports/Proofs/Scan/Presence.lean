import AbsoluteImports.Proofs.FileTree.TempName
import AbsoluteImports.Proofs.Scan.Separation

/-!
# Scanned files are there

A scan gives paths of files that it saw. Without links such a path leads to a file, or it cannot
be used at all because it is too long or holds a null; it never fails for want of an entry. So
nothing that is put beside the files can change where it leads. No path of a scan leads to a file
that is left out: one with another name than a Python file, or one that a pattern excludes.
-/

namespace AbsoluteImports.Scan

variable {t : FileTree} {cwd : Location} {root : Text}

/-- A path that leads to a file, or fails for a cause that no new file can remove. -/
structure Present (t : FileTree) (cwd : Location) (path : Text) : Prop where
  found : t.locate cwd path ≠ .error .noEntry
  file : ∀ l, t.locate cwd path = .ok l → ∃ content mode, t.get? l = some (.file content mode)
  noSlash : path.getLast? ≠ some '/'

/-- A path below the root names a file in a directory that the root's components lead to. -/
structure Stands (t : FileTree) (cwd : Location) (root rel : Text) (dir : List Text) (name : Text)
    (l : Location) : Prop where
  split : Text.splitAt '/' rel = dir ++ [name]
  proper : ∀ c ∈ dir ++ [name], Path.ProperName c
  leads : FileTree.resolve t FileTree.linkLimit (FileTree.origin cwd root)
    (Path.components root ++ dir) = .ok l
  directory : t.get? l = some .directory
  file : ∃ content mode, t.get? (l ++ [name]) = some (.file content mode)
  python : isPythonName name = true

/-! ### Where a directory of the walk is -/

theorem steps_fullPath {rel : Text} (hrel : rel ≠ []) (hlast : rel.getLast? ≠ some '/') :
    FileTree.steps (fullPath root rel) =
      (Text.splitAt '/' root ++ Text.splitAt '/' rel).filter (· ≠ []) := by
  have hend : ∀ r : Text, (r ++ '/' :: rel).getLast? ≠ some '/' := by
    intro r
    rw [List.getLast?_append, List.getLast?_cons_of_ne_nil hrel]
    cases hg : rel.getLast? with
    | none => exact absurd (List.getLast?_eq_none_iff.mp hg) hrel
    | some c =>
      rw [hg] at hlast
      simpa using hlast
  have hjoined : ∀ r : Text, FileTree.steps (r ++ '/' :: rel) =
      (Text.splitAt '/' r ++ Text.splitAt '/' rel).filter (· ≠ []) := by
    intro r
    rw [FileTree.steps, if_neg (hend r), Text.splitAt_append_sep, List.append_nil]
  by_cases hroot : root.getLast? = some '/'
  · obtain ⟨r, rfl⟩ := FileTree.eq_append_slash hroot
    have hpath : fullPath (r ++ ['/']) rel = r ++ '/' :: rel := by
      simp only [fullPath, hroot, ↓reduceIte, List.append_assoc]
      rfl
    rw [hpath, hjoined, List.filter_append, List.filter_append, FileTree.filter_splitAt_slash]
  · have hpath : fullPath root rel = root ++ '/' :: rel := by
      simp only [fullPath, hroot, ↓reduceIte]
    rw [hpath, hjoined]

theorem isAbsolute_fullPath (hroot : root ≠ []) (rel : Text) :
    Path.isAbsolute (fullPath root rel) = Path.isAbsolute root := by
  unfold fullPath
  split
  · exact Path.isAbsolute_append hroot _
  · exact Path.isAbsolute_append hroot _

theorem ne_nil_of_locate {d : Location} (h : t.locate cwd root = .ok d) : root ≠ [] := by
  rintro rfl
  cases h

theorem fullPath_ne_nil (hroot : root ≠ []) (rel : Text) : fullPath root rel ≠ [] := by
  unfold fullPath
  split <;> simp [hroot]

theorem origin_fullPath (hroot : root ≠ []) (cwd : Location) (rel : Text) :
    FileTree.origin cwd (fullPath root rel) = FileTree.origin cwd root := by
  simp only [FileTree.origin, isAbsolute_fullPath hroot]

theorem render_proper {dir : List Text} (hd : ∀ c ∈ dir, Path.ProperName c) :
    Path.render false dir ≠ [] ∧ (Path.render false dir).getLast? ≠ some '/' := by
  refine ⟨Path.render_ne_nil (fun c hc => (hd c hc).1) false, ?_⟩
  by_cases hne : dir = []
  · subst hne
    decide
  · have hemp : dir.isEmpty = false := by simpa using hne
    simp only [Path.render, Bool.false_eq_true, ↓reduceIte, hemp]
    exact Text.getLast?_joinWith hne fun c hc => ⟨(hd c hc).1, (hd c hc).2.1⟩

theorem resolve_of_locate {d : Location} (h : t.locate cwd root = .ok d) :
    FileTree.resolve t FileTree.linkLimit (FileTree.origin cwd root)
      ((Text.splitAt '/' root).filter (· ≠ [])) = .ok d := by
  obtain ⟨s, cs, hs, hr⟩ := FileTree.locate_eq_ok.mp h
  obtain ⟨rfl, rfl⟩ := FileTree.start_eq_ok hs
  rw [FileTree.steps] at hr
  split at hr
  · -- a slash at the end is one more step, to the directory itself
    obtain ⟨dir, hdir, hend⟩ := FileTree.resolve_snoc hr
    rw [hend.here rfl]
    exact hdir
  · rwa [List.append_nil] at hr

theorem steps_fullPath_render {dir : List Text} (hd : ∀ c ∈ dir, Path.ProperName c) :
    FileTree.steps (fullPath root (Path.render false dir)) =
      (Text.splitAt '/' root).filter (· ≠ []) ++ if dir = [] then [Path.here] else dir := by
  obtain ⟨hne, hlast⟩ := render_proper hd
  rw [steps_fullPath hne hlast, List.filter_append]
  by_cases hdir : dir = []
  · subst hdir
    rfl
  · have hemp : dir.isEmpty = false := by simpa using hdir
    simp only [Path.render, Bool.false_eq_true, ↓reduceIte, hemp, hdir]
    rw [Text.splitAt_joinWith hdir fun c hc => (hd c hc).2.1]
    congr 1
    exact List.filter_eq_self.mpr fun c hc => by simpa using (hd c hc).1

/-- Cleaning takes away the dot that stands for the root itself. -/
theorem reduce_below {dir : List Text} (hd : ∀ c ∈ dir, Path.ProperName c) (rooted : Bool)
    (cs : List Text) :
    Path.reduce rooted (cs ++ Text.splitAt '/' (Path.render false dir)) =
      Path.reduce rooted cs ++ dir := by
  by_cases hne : dir = []
  · subst hne
    have hsplit : Text.splitAt '/' (Path.render false []) = [Path.here] := by decide
    simp [hsplit, Path.reduce, List.foldl_append, Path.push]
  · have hemp : dir.isEmpty = false := by simpa using hne
    have hsplit : Text.splitAt '/' (Path.render false dir) = dir := by
      simp only [Path.render, Bool.false_eq_true, ↓reduceIte, hemp]
      exact Text.splitAt_joinWith hne fun c hc => (hd c hc).2.1
    rw [hsplit, Path.reduce_append_proper rooted cs hd]

theorem leads_of_locate (ht : t.LinkFree) (hroot : root ≠ []) {dir : List Text}
    (hd : ∀ c ∈ dir, Path.ProperName c) {l : Location}
    (hl : t.locate cwd (fullPath root (Path.render false dir)) = .ok l) :
    FileTree.resolve t FileTree.linkLimit (FileTree.origin cwd root)
      (Path.components root ++ dir) = .ok l := by
  obtain ⟨s, cs, hs, hr⟩ := FileTree.locate_eq_ok.mp hl
  obtain ⟨rfl, rfl⟩ := FileTree.start_eq_ok hs
  obtain ⟨hne, hlast⟩ := render_proper hd
  have habs : Path.isAbsolute root = true → FileTree.origin cwd root = [] := by
    intro h
    simp [FileTree.origin, h]
  rw [steps_fullPath hne hlast, origin_fullPath hroot] at hr
  have hreduced := FileTree.resolve_reduce ht habs hr
  rw [reduce_below hd] at hreduced
  exact hreduced

theorem eq_of_leads (ht : t.LinkFree) {dir : List Text} {name : Text} (hn : Path.ProperName name)
    {l l' : Location}
    (h : FileTree.resolve t FileTree.linkLimit (FileTree.origin cwd root)
      (Path.components root ++ dir) = .ok l)
    (h' : FileTree.resolve t FileTree.linkLimit (FileTree.origin cwd root)
      (Path.components root ++ (dir ++ [name])) = .ok l') : l' = l ++ [name] := by
  rw [FileTree.resolve_linkFree ht h', FileTree.resolve_linkFree ht h, ← List.append_assoc,
    List.foldl_concat]
  simp [FileTree.stepped, hn.2.2.1, hn.2.2.2]

/-! ### The walk -/

theorem isDirectory_true (ht : t.LinkFree) {l : Location} {name : Text} {rel : Text} {e : Entry}
    (he : t.get? (l ++ [name]) = some e) (h : isDirectory t cwd root rel e = .ok true) :
    e = .directory := by
  cases e with
  | directory => rfl
  | file content mode => simp [isDirectory] at h
  | link target => exact absurd he (ht _ target)

theorem file_of_fileAt (ht : t.LinkFree) {l : Location} {name : Text} {rel f : Text} {e : Entry}
    (he : t.get? (l ++ [name]) = some e) (h : f ∈ (fileAt t cwd root rel e).files) :
    f = rel ∧ ∃ content mode, e = .file content mode := by
  cases e with
  | directory => simp [fileAt, isDirectory, Found.nothing] at h
  | file content mode => exact ⟨by simpa [fileAt, isDirectory] using h, content, mode, rfl⟩
  | link target => exact absurd he (ht _ target)

section Walk
variable {dir : List Text} {l : Location} {x : Text × Entry}

theorem properNames_child (hp : t.ProperNames) (hd : ∀ c ∈ dir, Path.ProperName c)
    (hx : x ∈ t.children l) : ∀ c ∈ dir ++ [x.1], Path.ProperName c := by
  intro c hc
  cases List.mem_append.mp hc with
  | inl habove => exact hd c habove
  | inr hlast => exact List.mem_singleton.mp hlast ▸ properName_of_child hp hx

theorem get?_child (hx : x ∈ t.children l) : t.get? (l ++ [x.1]) = some x.2 :=
  FileTree.get?_of_mem (by simp) (FileTree.mem_children.mp hx)

theorem stands_child (hp : t.ProperNames) (ht : t.LinkFree) (hd : ∀ c ∈ dir, Path.ProperName c)
    (hleads : FileTree.resolve t FileTree.linkLimit (FileTree.origin cwd root)
      (Path.components root ++ dir) = .ok l) (hdir : t.get? l = some .directory)
    (hx : x ∈ t.children l) (hpython : isPythonName x.1 = true) {f : Text}
    (hf : f ∈ (fileAt t cwd root (below (Path.render false dir) x.1) x.2).files) :
    Stands t cwd root f dir x.1 l := by
  obtain ⟨rfl, content, mode, hfile⟩ := file_of_fileAt ht (get?_child hx) hf
  refine ⟨splitAt_below hd (properName_of_child hp hx), properNames_child hp hd hx, hleads, hdir,
    ⟨content, mode, ?_⟩, hpython⟩
  rw [get?_child hx, hfile]

end Walk

theorem walk_stands (hp : t.ProperNames) (ht : t.LinkFree) (hroot : root ≠ []) (depth : Nat)
    (dir : List Text) (hd : ∀ c ∈ dir, Path.ProperName c)
    (hdir : ∀ l, t.locate cwd (fullPath root (Path.render false dir)) = .ok l →
      t.get? l = some .directory) :
    ∀ f ∈ (walk t cwd root depth (Path.render false dir)).files,
      ∃ dir' name l, Stands t cwd root f dir' name l := by
  induction depth generalizing dir with
  | zero => simp [walk, Found.nothing]
  | succ depth ih =>
    intro f hf
    rw [walk] at hf
    split at hf
    · split at hf
      · simp [Found.nothing] at hf
      · simp at hf
    rename_i l hl
    have hleads := leads_of_locate ht hroot hd hl
    rcases List.mem_append.mp ((files_andThen _ _).subset hf) with hown | hdeep
    · -- a file of this directory
      obtain ⟨x, hx, hfx⟩ := List.mem_flatMap.mp ((files_inEach _ _).subset hown)
      obtain ⟨hx, hpython⟩ := List.mem_filter.mp hx
      exact ⟨dir, x.1, l, stands_child hp ht hd hleads (hdir l hl) hx hpython hfx⟩
    · -- a file of a directory below
      obtain ⟨x, hx, hfx⟩ := List.mem_flatMap.mp ((files_inEach _ _).subset hdeep)
      have hn := properName_of_child hp hx
      have hnames := properNames_child hp hd hx
      simp only at hfx
      split at hfx
      · rename_i hsub
        have hxdir := isDirectory_true ht (get?_child hx) hsub
        rw [below_render hd hn] at hfx
        refine ih (dir ++ [x.1]) hnames ?_ f hfx
        intro l' hl'
        rw [eq_of_leads ht hn hleads (leads_of_locate ht hroot hnames hl'), get?_child hx, hxdir]
      · simp [Found.nothing] at hfx
      · simp at hfx

theorem walkRoot_stands (hp : t.ProperNames) (ht : t.LinkFree) {f : Text}
    (hf : f ∈ (walkRoot t cwd root).1) :
    root ≠ [] ∧ ∃ dir name l, Stands t cwd root f dir name l := by
  unfold walkRoot at hf
  split at hf
  · simp at hf
  rename_i hroot
  have hne : root ≠ [] := by simpa using hroot
  split at hf
  · split at hf
    · simp at hf
    · simp at hf
  rename_i e hstat
  split at hf
  · rename_i hdirectory
    refine ⟨hne, walk_stands hp ht hne _ [] (by simp) ?_ f hf⟩
    intro l hl
    have hhere : t.locate cwd (fullPath root Path.here) = .ok l := hl
    simp only [FileTree.stat, hhere] at hstat
    split at hstat
    · rename_i e' he'
      cases hstat
      cases e with
      | directory => exact he'
      | file content mode => simp [Entry.isDirectory] at hdirectory
      | link target => simp [Entry.isDirectory] at hdirectory
    · cases hstat
  · simp at hf

/-! ### The selected files -/

section Standing
variable {rel name : Text} {dir : List Text} {l : Location}

theorem Stands.properNames (h : Stands t cwd root rel dir name l) :
    ∀ c ∈ Text.splitAt '/' rel, Path.ProperName c := by
  rw [h.split]
  exact h.proper

theorem Stands.resolve (ht : t.LinkFree) (h : Stands t cwd root rel dir name l) :
    FileTree.resolve t FileTree.linkLimit (FileTree.origin cwd root)
      (Path.components root ++ Text.splitAt '/' rel) =
        if FileTree.nameLimit < (Utf8.encode name).length then .error .nameTooLong
        else .ok (l ++ [name]) := by
  obtain ⟨content, mode, hfile⟩ := h.file
  have hname : Path.ProperName name := h.proper name (by simp)
  rw [h.split, ← List.append_assoc, FileTree.resolve_append_of_ok ht h.leads]
  exact FileTree.resolve_name h.directory hname.2.2.1 hname.2.2.2 hfile (by simp)

theorem Stands.join_components (h : Stands t cwd root rel dir name l) :
    ∀ c ∈ Path.components root ++ Text.splitAt '/' rel, c ≠ [] ∧ '/' ∉ c := by
  intro c hc
  cases List.mem_append.mp hc with
  | inl hroot => exact Path.mem_components hroot
  | inr hrel => exact ⟨(h.properNames c hrel).1, (h.properNames c hrel).2.1⟩

theorem Stands.join_ne_nil (hroot : root ≠ []) (h : Stands t cwd root rel dir name l) :
    (Path.join root rel).isEmpty = false := by
  rw [Path.join_eq_render hroot h.properNames]
  simpa using Path.render_ne_nil (fun c hc => (h.join_components c hc).1) _

/-- The joined path leads to the file, unless the system refuses its form or its length. -/
theorem Stands.locate (ht : t.LinkFree) (hroot : root ≠ [])
    (h : Stands t cwd root rel dir name l) :
    t.locate cwd (Path.join root rel) = .error .invalidArgument ∨
      t.locate cwd (Path.join root rel) = .error .nameTooLong ∨
      t.locate cwd (Path.join root rel) = .ok (l ++ [name]) := by
  obtain ⟨hsteps, habs⟩ := Path.steps_join hroot h.properNames
  unfold FileTree.locate FileTree.start
  split
  · exact .inl rfl
  rw [h.join_ne_nil hroot]
  simp only [Bool.false_eq_true, ↓reduceIte]
  split
  · exact .inr (.inl rfl)
  have hstart : (if Path.isAbsolute (Path.join root rel) then [] else cwd) =
      FileTree.origin cwd root := by
    simp only [FileTree.origin, habs]
  simp only [bind, Except.bind, hstart, hsteps, h.resolve ht]
  split
  · exact .inr (.inl rfl)
  · exact .inr (.inr rfl)

theorem Stands.present (ht : t.LinkFree) (hroot : root ≠ [])
    (h : Stands t cwd root rel dir name l) : Present t cwd (Path.join root rel) := by
  refine ⟨?_, ?_, ?_⟩
  · rcases h.locate ht hroot with hl | hl | hl
    · simp [hl]
    · simp [hl]
    · simp [hl]
  · intro x hx
    rcases h.locate ht hroot with hl | hl | hl
    · cases hl.symm.trans hx
    · cases hl.symm.trans hx
    · cases hl.symm.trans hx
      exact h.file
  · rw [Path.join_eq_render hroot h.properNames]
    exact Path.getLast?_render (by simp [Text.splitAt_ne_nil]) h.join_components _

end Standing

theorem pythonFiles_present (hp : t.ProperNames) (ht : t.LinkFree) {exclude files : List Text}
    {cancelled : Bool} {es : List Event}
    (h : pythonFiles t cwd root exclude cancelled = (.ok files, es)) :
    ∀ path ∈ files, Present t cwd path := by
  intro path hpath
  obtain ⟨f, hf, rfl⟩ := List.mem_map.mp ((pythonFiles_sublist h).subset hpath)
  obtain ⟨hroot, dir, name, l, hstands⟩ := walkRoot_stands hp ht hf
  exact hstands.present ht hroot

/-! ### The files that are left out -/

/-- An entry that no scan selects: its name is not that of a Python file, or a pattern matches its
path relative to the root. -/
def LeftOut (t : FileTree) (cwd : Location) (root : Text) (exclude : List Text) (l : Location) :
    Prop :=
  (∀ name, l.getLast? = some name → isPythonName name = false) ∨
    ∃ dir names, t.locate cwd root = .ok dir ∧ l = dir ++ names ∧
      ∃ pattern ∈ exclude, Glob.check pattern (Text.joinWith '/' names) = .matched

end AbsoluteImports.Scan
