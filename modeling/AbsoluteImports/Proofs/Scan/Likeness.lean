import AbsoluteImports.Proofs.FileTree.Likeness
import AbsoluteImports.Scan

/-!
# Scans of trees that are alike

A scan looks at names and kinds of entries, never into a file. So trees that are alike are scanned
alike: the same files in the same order, the same events, the same reason to stop.
-/

namespace AbsoluteImports

variable {t u : FileTree}

/-! ### Looking at one entry -/

theorem FileTree.stat_congr (h : t.SameShape u) (cwd : Location) (path : Text) :
    (∃ f, t.stat cwd path = .error f ∧ u.stat cwd path = .error f) ∨
      ∃ e e', t.stat cwd path = .ok e ∧ u.stat cwd path = .ok e' ∧ e.shape = e'.shape := by
  unfold FileTree.stat
  rw [FileTree.locate_congr h]
  cases u.locate cwd path with
  | error c => exact .inl ⟨_, rfl, rfl⟩
  | ok l =>
    have hl := h l
    simp only
    cases ht : t.get? l with
    | none =>
      rw [h.none_of ht]
      exact .inl ⟨_, rfl, rfl⟩
    | some e =>
      rw [ht] at hl
      obtain ⟨e', hu, hshape⟩ := Option.map_eq_some_iff.mp hl.symm
      rw [hu]
      exact .inr ⟨e, e', rfl, rfl, hshape.symm⟩

theorem SourceFile.isFile_congr (h : t.SameShape u) (cwd : Location) (path : Text) :
    SourceFile.isFile t cwd path = SourceFile.isFile u cwd path := by
  unfold SourceFile.isFile
  obtain ⟨f, ht, hu⟩ | ⟨e, e', ht, hu, hshape⟩ := FileTree.stat_congr h cwd path
  · rw [ht, hu]
  · simp only [ht, hu, Entry.isDirectory_of_shape hshape]

theorem Package.validateDirectory_congr (h : t.SameShape u) (cwd : Location) (path : Text) :
    Package.validateDirectory t cwd path = Package.validateDirectory u cwd path := by
  unfold Package.validateDirectory
  obtain ⟨f, ht, hu⟩ | ⟨e, e', ht, hu, hshape⟩ := FileTree.stat_congr h cwd path
  · rw [ht, hu]
  · simp only [ht, hu, Entry.isDirectory_of_shape hshape]

namespace Scan

theorem isDirectory_congr (h : t.SameShape u) (cwd : Location) (root rel : Text) {e e' : Entry}
    (he : e.shape = e'.shape) : isDirectory t cwd root rel e = isDirectory u cwd root rel e' := by
  cases e with
  | file content mode =>
    cases e' with
    | file content' mode' => rfl
    | directory => cases he
    | link target => cases he
  | directory =>
    cases e' with
    | file content' mode' => cases he
    | directory => rfl
    | link target => cases he
  | link target =>
    cases e' with
    | file content' mode' => cases he
    | directory => cases he
    | link target' =>
      simp only [isDirectory]
      obtain ⟨f, ht, hu⟩ | ⟨x, x', ht, hu, hshape⟩ := FileTree.stat_congr h cwd (fullPath root rel)
      · rw [ht, hu]
      · simp only [ht, hu, Entry.isDirectory_of_shape hshape]

/-! ### The walk -/

theorem inEach_congr {f g : Text × Entry → Found} {xs ys : List (Text × Entry)}
    (h : xs.map FileTree.shaped = ys.map FileTree.shaped)
    (hfg : ∀ x y, FileTree.shaped x = FileTree.shaped y → f x = g y) :
    Found.inEach f xs = Found.inEach g ys := by
  induction xs generalizing ys with
  | nil =>
    have hys : ys = [] := List.map_eq_nil_iff.mp h.symm
    rw [hys]
    rfl
  | cons x xs ih =>
    obtain ⟨y, ys', rfl, hy, hys⟩ := List.map_eq_cons_iff.mp h.symm
    rw [Found.inEach, Found.inEach, hfg x y hy.symm, ih hys.symm]

theorem map_filter_shaped (p : Text → Bool) (xs : List (Text × Entry)) :
    (xs.filter fun x => p x.1).map FileTree.shaped =
      (xs.map FileTree.shaped).filter fun x => p x.1 := by
  rw [List.filter_map]
  rfl

theorem walk_congr (h : t.Alike u) (cwd : Location) (root : Text) (depth : Nat) (dir : Text) :
    walk t cwd root depth dir = walk u cwd root depth dir := by
  induction depth generalizing dir with
  | zero => rfl
  | succ depth ih =>
    have hshape := h.sameShape
    rw [walk, walk, FileTree.locate_congr hshape]
    cases u.locate cwd (fullPath root dir) with
    | error c => rfl
    | ok l =>
      have hchildren := h.children l
      have hpython : ((t.children l).filter fun x => isPythonName x.1).map FileTree.shaped =
          ((u.children l).filter fun x => isPythonName x.1).map FileTree.shaped := by
        rw [map_filter_shaped, map_filter_shaped, hchildren]
      simp only
      congr 1
      · refine inEach_congr hpython fun x y hxy => ?_
        obtain ⟨hname, hentry⟩ := Prod.mk.inj hxy
        simp only [fileAt, hname, isDirectory_congr hshape cwd root _ hentry]
      · refine inEach_congr hchildren fun x y hxy => ?_
        obtain ⟨hname, hentry⟩ := Prod.mk.inj hxy
        simp only [hname, isDirectory_congr hshape cwd root _ hentry, ih]

theorem walkRoot_congr (h : t.Alike u) (cwd : Location) (root : Text) :
    walkRoot t cwd root = walkRoot u cwd root := by
  have hdepth : depthLimit t = depthLimit u := by rw [depthLimit, depthLimit, h.length_eq]
  unfold walkRoot
  split
  · rfl
  · obtain ⟨f, ht, hu⟩ | ⟨e, e', ht, hu, hshape⟩ :=
      FileTree.stat_congr h.sameShape cwd (fullPath root Path.here)
    · rw [ht, hu]
    · simp only [ht, hu, Entry.isDirectory_of_shape hshape, hdepth, walk_congr h]

theorem pythonFiles_congr (h : t.Alike u) (cwd : Location) (root : Text) (exclude : List Text)
    (cancelled : Bool) :
    pythonFiles t cwd root exclude cancelled = pythonFiles u cwd root exclude cancelled := by
  simp only [pythonFiles, walkRoot_congr h]

end Scan

end AbsoluteImports
