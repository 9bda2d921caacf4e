import AbsoluteImports.Proofs.FileTree.Growth
import AbsoluteImports.Proofs.Path.Elements
import AbsoluteImports.Proofs.FileTree.Replacement

/-!
# Temporary files

The number in the name of a temporary file comes from outside, and so does its length: with one
number there may be room for the name, with another one not. What is shown here holds for every
number. Beside a file that is there, a temporary file has a place or there is a cause against its
name, and files that others put into the tree change neither (`place_tempPath`).
-/

namespace AbsoluteImports.FileTree

variable {t u : FileTree} {cwd : Location} {dir base path : Text} {tag : Nat}

/-! ### Names -/

theorem slash_not_mem_tempName (hb : '/' ∉ base) : '/' ∉ tempName base tag := by
  have hdigits : '/' ∉ Nat.toDigits 10 tag := by
    intro hm
    have hd := Nat.isDigit_of_mem_toDigits (b := 10) (by decide) (by decide) hm
    exact absurd hd (by decide)
  simp [tempName, hb, hdigits]

theorem tempName_step : ¬(tempName base tag = Path.here ∨ tempName base tag = Path.above) := by
  have hlen : 6 ≤ (tempName base tag).length := by
    simp [tempName]
    omega
  rintro (h | h)
  · rw [h] at hlen
    exact absurd hlen (by decide)
  · rw [h] at hlen
    exact absurd hlen (by decide)

/-! ### Paths -/

theorem eq_append_slash {s : Text} (h : s.getLast? = some '/') : ∃ r, s = r ++ ['/'] :=
  List.getLast?_eq_some_iff.mp h

theorem filter_splitAt_slash (r : Text) :
    (Text.splitAt '/' (r ++ ['/'])).filter (· ≠ []) = (Text.splitAt '/' r).filter (· ≠ []) := by
  rw [Text.splitAt_append_sep, List.filter_append]
  simp [Text.splitAt]

theorem steps_tempPath (hb : '/' ∉ base) :
    steps (tempPath dir base tag) =
      (Text.splitAt '/' dir).filter (· ≠ []) ++ [tempName base tag] := by
  have hname : '/' ∉ tempName base tag := slash_not_mem_tempName hb
  have hsplit : Text.splitAt '/' (tempName base tag) = [tempName base tag] :=
    Text.splitAt_of_not_mem hname
  have hfilter : [tempName base tag].filter (· ≠ []) = [tempName base tag] := by
    simp [tempName]
  have hlast : ∀ r : Text, (r ++ '/' :: tempName base tag).getLast? ≠ some '/' := by
    intro r
    have hend : r ++ '/' :: tempName base tag =
        (r ++ '/' :: '.' :: base ++ '.' :: Nat.toDigits 10 tag ++ ".tm".toList) ++ ['p'] := by
      simp [tempName]
    rw [hend, List.getLast?_concat]
    decide
  have hjoined : ∀ r : Text, steps (r ++ '/' :: tempName base tag) =
      (Text.splitAt '/' r).filter (· ≠ []) ++ [tempName base tag] := by
    intro r
    rw [steps, if_neg (hlast r), Text.splitAt_append_sep, hsplit, List.filter_append, hfilter,
      List.append_nil]
  by_cases hdir : dir.getLast? = some '/'
  · obtain ⟨r, rfl⟩ := eq_append_slash hdir
    have hpath : tempPath (r ++ ['/']) base tag = r ++ '/' :: tempName base tag := by
      simp [tempPath]
    rw [hpath, hjoined, filter_splitAt_slash]
  · have hpath : tempPath dir base tag = dir ++ '/' :: tempName base tag := by
      simp [tempPath, hdir]
    rw [hpath, hjoined]

theorem origin_tempPath (hd : dir ≠ []) : origin cwd (tempPath dir base tag) = origin cwd dir := by
  rw [origin, origin, tempPath, List.append_assoc, Path.isAbsolute_append hd]

theorem start_cases (cwd : Location) (hp : path ≠ []) :
    start cwd path = .ok (origin cwd path, steps path) ∨
      ∃ c, start cwd path = .error c ∧ c ≠ .noEntry ∧ c ≠ .entryExists := by
  have hempty : path.isEmpty = false := by simpa using hp
  unfold start
  split
  · exact .inr ⟨_, rfl, by decide, by decide⟩
  simp only [hempty, Bool.false_eq_true, ↓reduceIte]
  split
  · exact .inr ⟨_, rfl, by decide, by decide⟩
  · exact .inl rfl

/-! ### The directory of a file -/

theorem steps_parent (hp : path ≠ []) (hlast : path.getLast? ≠ some '/') :
    ∃ init, steps path = init.filter (· ≠ []) ++ [Path.base path] ∧
      Path.parent path =
        Path.render (Path.isAbsolute path) (Path.reduce (Path.isAbsolute path) init) ∧
      ∀ c ∈ Path.reduce (Path.isAbsolute path) init, c ≠ [] ∧ '/' ∉ c := by
  obtain ⟨hbase, hne, -⟩ := Path.base_of_no_slash hp hlast
  obtain ⟨init, hinit, hparent⟩ := Path.parent_eq_render hp hlast
  refine ⟨init, ?_, hparent, ?_⟩
  · rw [steps, if_neg hlast, hinit, List.filter_append, List.append_nil, hbase]
    simp [hne]
  · intro c hc
    rw [Path.reduce, List.mem_reverse] at hc
    rcases Path.mem_foldl_push hc with hc | rfl | ⟨hc, hc', -⟩
    · exact absurd hc (by simp)
    · decide
    · refine ⟨hc', Text.not_mem_of_mem_splitAt (s := path) ?_⟩
      rw [hinit]
      exact List.mem_append_left _ hc

theorem resolve_render {n : Nat} {cs : List Text} {l : Location}
    (hmem : ∀ c ∈ cs, c ≠ [] ∧ '/' ∉ c) (hr : resolve t n (origin cwd path) cs = .ok l)
    (hd : t.get? l = some .directory) :
    resolve t n (origin cwd (Path.render (Path.isAbsolute path) cs))
      ((Text.splitAt '/' (Path.render (Path.isAbsolute path) cs)).filter (· ≠ [])) = .ok l := by
  by_cases hnil : cs = []
  · subst hnil
    have hl : origin cwd path = l := by
      cases n with
      | zero => exact Except.ok.inj hr
      | succ n => exact Except.ok.inj hr
    cases habs : Path.isAbsolute path with
    | true =>
      rw [← hl]
      simp only [origin, habs]
      cases n with
      | zero => rfl
      | succ n => rfl
    | false =>
      have horigin : origin cwd (Path.render false []) = l := by
        rw [← hl]
        simp only [origin, habs]
        rfl
      rw [horigin]
      exact resolve_here hd
  · have hfilter := Path.filter_splitAt_render hnil hmem (Path.isAbsolute path)
    have horigin : origin cwd (Path.render (Path.isAbsolute path) cs) = origin cwd path := by
      simp only [origin, Path.isAbsolute_render hnil hmem]
    rw [hfilter, horigin]
    exact hr

/-- Without links, the cleaned path of the directory leads to the directory of a file. -/
theorem resolve_parent (ht : t.LinkFree) {x : Location} (hlast : path.getLast? ≠ some '/')
    (hl : t.locate cwd path = .ok x) :
    Path.parent path ≠ [] ∧ '/' ∉ Path.base path ∧
      ∃ dir, resolve t linkLimit (origin cwd (Path.parent path))
          ((Text.splitAt '/' (Path.parent path)).filter (· ≠ [])) = .ok dir ∧
        t.get? dir = some .directory := by
  obtain ⟨s, cs, hs, hr⟩ := locate_eq_ok.mp hl
  obtain ⟨rfl, rfl⟩ := start_eq_ok hs
  have hp : path ≠ [] := by
    intro hnil
    rw [hnil] at hs
    cases hs
  obtain ⟨hbase, -, hslash⟩ := Path.base_of_no_slash hp hlast
  obtain ⟨init, hsteps, hparent, hmem⟩ := steps_parent hp hlast
  rw [hsteps] at hr
  obtain ⟨dir, hdir, hend⟩ := resolve_snoc hr
  have hroot : Path.isAbsolute path = true → origin cwd path = [] := by
    intro habs
    simp [origin, habs]
  rw [hparent]
  exact ⟨Path.render_ne_nil (fun c hc => (hmem c hc).1) _, hbase ▸ hslash, dir,
    resolve_render hmem (resolve_reduce ht hroot hdir) hend.directory, hend.directory⟩

/-! ### Making one -/

/-- Beside a file that is there, a temporary file has a place or there is a cause against its
name. -/
theorem place_tempPath (ht : t.LinkFree) {x : Location} (hlast : path.getLast? ≠ some '/')
    (hl : t.locate cwd path = .ok x) (tag : Nat) :
    (∃ l, t.place cwd (tempPath (Path.parent path) (Path.base path) tag) = .ok l) ∨
      ∃ c, t.place cwd (tempPath (Path.parent path) (Path.base path) tag) = .error c ∧
        c ≠ .noEntry ∧ c ≠ .entryExists := by
  obtain ⟨hd, hb, dir, hdir, hdirectory⟩ := resolve_parent ht hlast hl
  have hne : tempPath (Path.parent path) (Path.base path) tag ≠ [] := by simp [tempPath, tempName]
  unfold place
  rcases start_cases cwd hne with hs | ⟨c, hs, hc⟩
  · simp only [hs, bind, Except.bind, steps_tempPath hb, origin_tempPath hd,
      List.getLast?_concat, tempName_step, ↓reduceIte, List.dropLast_concat, hdir, hdirectory]
    split
    · exact .inr ⟨_, rfl, by decide, by decide⟩
    · exact .inl ⟨_, rfl⟩
  · rw [hs]
    exact .inr ⟨c, rfl, hc⟩

theorem openNew_of_free {l : Location} (hp : t.place cwd path = .ok l) (hl : t.get? l = none) :
    t.openNew cwd path = .ok (l, t.set l (.file [] 0o600)) := by
  simp only [openNew, hp, hl]

theorem openNew_of_taken {l : Location} (hp : t.place cwd path = .ok l) (hl : t.get? l ≠ none) :
    t.openNew cwd path = .error ⟨.open path, .entryExists⟩ := by
  obtain ⟨e, he⟩ := Option.ne_none_iff_exists'.mp hl
  simp only [openNew, hp, he]

theorem openNew_of_refused {c : Cause} (hp : t.place cwd path = .error c) :
    t.openNew cwd path = .error ⟨.open path, c⟩ := by
  simp only [openNew, hp]

theorem createTemp_of_free (hb : '/' ∉ Path.base path) {l : Location}
    (hp : t.place cwd (tempPath (Path.parent path) (Path.base path) tag) = .ok l)
    (hl : t.get? l = none) :
    t.createTemp cwd path tag =
      .ok (⟨tempPath (Path.parent path) (Path.base path) tag, l⟩, t.set l (.file [] 0o600)) := by
  have hslash : ((Path.base path).contains '/') = false := by simpa using hb
  have hnew := openNew_of_free hp hl
  simp only [createTemp, hslash, Bool.false_eq_true, ↓reduceIte]
  cases t.entries.length with
  | zero => simp only [openTemp, hnew, Except.map]
  | succ n => simp only [openTemp, hnew]

/-- What is against the first name ends the search. -/
theorem createTemp_of_refused (hb : '/' ∉ Path.base path) {c : Cause}
    (hp : t.place cwd (tempPath (Path.parent path) (Path.base path) tag) = .error c)
    (hc : c ≠ .entryExists) :
    t.createTemp cwd path tag =
      .error ⟨.open (tempPath (Path.parent path) (Path.base path) tag), c⟩ := by
  have hslash : ((Path.base path).contains '/') = false := by simpa using hb
  have hnew := openNew_of_refused hp
  simp only [createTemp, hslash, Bool.false_eq_true, ↓reduceIte]
  cases t.entries.length with
  | zero => simp only [openTemp, hnew, Except.map]
  | succ n => simp only [openTemp, hnew, hc, ↓reduceIte]

theorem openNew_error {f : Failure} (h : t.openNew cwd path = .error f) : f.call = .open path := by
  unfold openNew at h
  split at h
  · cases h
    rfl
  · split at h
    · cases h
      rfl
    · cases h

theorem openTemp_error {attempts : Nat} {f : Failure}
    (h : t.openTemp cwd dir base attempts tag = .error f) : ∃ p, f.call = .open p := by
  induction attempts generalizing tag with
  | zero =>
    simp only [openTemp] at h
    cases hn : t.openNew cwd (tempPath dir base tag) with
    | ok p =>
      rw [hn] at h
      cases h
    | error f' =>
      rw [hn] at h
      cases h
      exact ⟨_, openNew_error hn⟩
  | succ n ih =>
    simp only [openTemp] at h
    cases hn : t.openNew cwd (tempPath dir base tag) with
    | ok p =>
      rw [hn] at h
      cases h
    | error f' =>
      simp only [hn] at h
      split at h
      · exact ih h
      · cases h
        exact ⟨_, openNew_error hn⟩

theorem createTemp_error (hb : '/' ∉ Path.base path) {f : Failure}
    (h : t.createTemp cwd path tag = .error f) : ∃ p, f.call = .open p := by
  have hslash : ((Path.base path).contains '/') = false := by simpa using hb
  simp only [createTemp, hslash, Bool.false_eq_true, ↓reduceIte] at h
  exact openTemp_error h

end AbsoluteImports.FileTree
