import AbsoluteImports.Proofs.FileTree.Links
import AbsoluteImports.Proofs.Scan.Exclusion
import AbsoluteImports.Proofs.Scan.Presence

/-!
# One directory in every stage

The check of a directory and the walk through it follow its path as it is; the marker and the paths
of the files are joined to it and cleaned, without a look at the tree. The two readings differ where
a step up follows a link. They agree exactly when the cleaned path leads to the same directory, and
then the marker is the one of that directory, and the path of each file leads to the file that the
walk visited.
-/

namespace AbsoluteImports.Scan

variable {t : FileTree} {cwd X l d : Location} {root rel name : Text} {dir names : List Text}

/-- Whether a path leads to a location after it is cleaned. -/
def LeadsClean (t : FileTree) (cwd : Location) (root : Text) (X : Location) : Prop :=
  FileTree.resolve t FileTree.linkLimit (FileTree.origin cwd root) (Path.components root) = .ok X

/-- Causes for which a path is refused as such, whatever stands where it leads. -/
def Refused (c : FileTree.Cause) : Prop :=
  c = .invalidArgument ∨ c = .nameTooLong ∨ c = .tooManyLinks

theorem Refused.ne_noEntry {c : FileTree.Cause} (h : Refused c) : c ≠ .noEntry := by
  rcases h with rfl | rfl | rfl <;> simp

theorem Refused.of_start {c : FileTree.Cause} (h : c = .invalidArgument ∨ c = .nameTooLong) :
    Refused c := h.imp_right .inl

/-! ### The path and the cleaned path -/

theorem reduce_of_not_above (rooted : Bool) {cs : List Text} (h : Path.above ∉ cs) :
    Path.reduce rooted cs = (cs.filter (· ≠ [])).filter (· ≠ Path.here) := by
  have hpush : ∀ stack, cs.foldl (Path.push rooted) stack =
      ((cs.filter (· ≠ [])).filter (· ≠ Path.here)).reverse ++ stack := by
    induction cs with
    | nil => simp
    | cons c cs ih =>
      intro stack
      simp only [List.mem_cons, not_or] at h
      rw [List.foldl_cons, ih h.2]
      by_cases hnil : c = []
      · simp [hnil, Path.push]
      · by_cases hhere : c = Path.here
        · simp [hhere, Path.push]
        · have hne : c ≠ Path.above := fun hc => h.1 hc.symm
          simp [hnil, hhere, hne, Path.push]
  rw [Path.reduce, hpush, List.append_nil, List.reverse_reverse]

theorem leadsClean_of_locate (hX : t.locate cwd root = .ok X)
    (h : Path.above ∉ Text.splitAt '/' root ∨ t.LinkFree) : LeadsClean t cwd root X := by
  have hleads := resolve_of_locate hX
  rcases h with habove | hlinks
  · rw [LeadsClean, Path.components, reduce_of_not_above _ habove]
    exact FileTree.resolve_filter_here hleads
  · refine FileTree.resolve_reduce hlinks (fun habs => ?_) hleads
    simp [FileTree.origin, habs]

theorem locate_join_cut (hroot : root ≠ []) (hclean : LeadsClean t cwd root X)
    (hproper : ∀ c ∈ Text.splitAt '/' rel, Path.ProperName c) :
    t.locate cwd (Path.join root rel) =
        FileTree.resolve t FileTree.linkLimit X (Text.splitAt '/' rel) ∨
      ∃ c, Refused c ∧ t.locate cwd (Path.join root rel) = .error c := by
  obtain ⟨hsteps, habs⟩ := Path.steps_join hroot hproper
  have hne : Path.join root rel ≠ [] := by
    intro hnil
    rw [hnil] at hsteps
    have hempty := List.append_eq_nil_iff.mp hsteps.symm
    exact Text.splitAt_ne_nil rel hempty.2
  have horigin : FileTree.origin cwd (Path.join root rel) = FileTree.origin cwd root := by
    simp only [FileTree.origin, habs]
  rcases FileTree.locate_steps (t := t) cwd hne with hlocate | ⟨c, hc, hfail⟩
  · obtain ⟨k, hk, hcut⟩ := FileTree.resolve_cut hclean
    rw [hlocate, horigin, hsteps, hcut]
    rcases FileTree.resolve_fewer hk X (Text.splitAt '/' rel) with heq | htoo
    · exact .inl heq
    · exact .inr ⟨_, .inr (.inr rfl), htoo⟩
  · exact .inr ⟨c, .of_start hc, hfail⟩

/-! ### The marker -/

/-- Whether a directory holds a marker: an entry of that name that leads to no directory. -/
def Marked (t : FileTree) (X : Location) : Prop :=
  ∃ l e, FileTree.resolve t FileTree.linkLimit X [Package.marker] = .ok l ∧ t.get? l = some e ∧
    e.isDirectory = false

theorem splitAt_marker : Text.splitAt '/' Package.marker = [Package.marker] := by decide

theorem proper_marker : ∀ c ∈ Text.splitAt '/' Package.marker, Path.ProperName c := by decide

theorem isRoot_iff_marked (hroot : root ≠ []) (hclean : LeadsClean t cwd root X) {b : Bool}
    (h : Package.isRoot (.plain cwd) t root = .ok b) : b = true ↔ Marked t X := by
  have hfile : SourceFile.isFile t cwd (Path.join root Package.marker) = .ok b := h
  unfold SourceFile.isFile FileTree.stat at hfile
  rcases locate_join_cut hroot hclean proper_marker with hlocate | ⟨c, hc, hfail⟩
  · rw [splitAt_marker] at hlocate
    rw [hlocate] at hfile
    unfold Marked
    cases hleads : FileTree.resolve t FileTree.linkLimit X [Package.marker] with
    | error c =>
      simp only [hleads] at hfile
      split at hfile
      · cases hfile
        simp
      · cases hfile
    | ok l =>
      simp only [hleads] at hfile
      cases he : t.get? l with
      | none =>
        simp only [he] at hfile
        cases hfile
        simp [he]
      | some e =>
        simp only [he] at hfile
        cases hfile
        simp [he]
  · simp [hfail, hc.ne_noEntry] at hfile

/-- The marker's path names the marker of a directory only when the cleaned path leads there. -/
theorem leadsClean_of_place (hroot : root ≠ [])
    (h : t.place cwd (Package.markerPath root) = .ok (X ++ [Package.marker])) :
    LeadsClean t cwd root X := by
  obtain ⟨hsteps, habs⟩ := Path.steps_join hroot proper_marker
  obtain ⟨s, cs, hs, hcase⟩ := FileTree.place_eq_ok.mp h
  obtain ⟨rfl, rfl⟩ := FileTree.start_eq_ok hs
  have horigin : FileTree.origin cwd (Path.join root Package.marker) =
      FileTree.origin cwd root := by
    simp only [FileTree.origin, habs]
  rw [Package.markerPath, hsteps, splitAt_marker, horigin] at hcase
  rw [List.getLast?_concat, List.dropLast_concat] at hcase
  rcases hcase with ⟨hnone, -⟩ | ⟨c, hc, hup, -⟩ | ⟨c, d, hc, -, hd, -, -, heq⟩
  · cases hnone
  · cases hc
    exact absurd hup (by decide)
  · cases hc
    rw [LeadsClean, List.append_cancel_right heq]
    exact hd

/-! ### The files that are visited -/

/-- A relative path is that of an entry that a walk from `X` visits: its names lead from `X` to a
directory `d` with an entry of the last name, one that leads to no directory. -/
structure Visited (t : FileTree) (X : Location) (rel : Text) (names : List Text) (name : Text)
    (d : Location) : Prop where
  split : Text.splitAt '/' rel = names ++ [name]
  proper : ∀ c ∈ names ++ [name], Path.ProperName c
  leads : FileTree.resolve t FileTree.linkLimit X names = .ok d
  entry : t.get? (d ++ [name]) ≠ none
  file : ∀ l, FileTree.resolve t FileTree.linkLimit d [name] = .ok l → t.get? l ≠ some .directory
  python : isPythonName name = true

theorem locate_fullPath_cut (hX : t.locate cwd root = .ok X)
    (hproper : ∀ c ∈ dir, Path.ProperName c)
    (hl : t.locate cwd (fullPath root (Path.render false dir)) = .ok l) :
    FileTree.resolve t FileTree.linkLimit X dir = .ok l ∧
      ∀ name, Path.ProperName name →
        t.locate cwd (fullPath root (Path.render false (dir ++ [name]))) =
            FileTree.resolve t FileTree.linkLimit l [name] ∨
          ∃ c, Refused c ∧
            t.locate cwd (fullPath root (Path.render false (dir ++ [name]))) = .error c := by
  have hroot := ne_nil_of_locate hX
  obtain ⟨k, hk, hcut⟩ := FileTree.resolve_cut (resolve_of_locate hX)
  have hleads : FileTree.resolve t k X dir = .ok l := by
    obtain ⟨s, cs, hs, hr⟩ := FileTree.locate_eq_ok.mp hl
    obtain ⟨rfl, rfl⟩ := FileTree.start_eq_ok hs
    rw [origin_fullPath hroot, steps_fullPath_render hproper, hcut] at hr
    split at hr
    · rename_i hnil
      subst hnil
      exact FileTree.resolve_of_here hr
    · exact hr
  refine ⟨FileTree.resolve_of_fewer hk hleads, fun name hname => ?_⟩
  rcases FileTree.locate_steps (t := t) cwd
    (fullPath_ne_nil hroot (Path.render false (dir ++ [name]))) with hsteps | ⟨c, hc, hfail⟩
  · obtain ⟨k', hk', hcut'⟩ := FileTree.resolve_cut hleads
    have hproper' : ∀ c ∈ dir ++ [name], Path.ProperName c := by
      intro c hc
      rcases List.mem_append.mp hc with hc | hc
      · exact hproper c hc
      · exact List.mem_singleton.mp hc ▸ hname
    rw [hsteps, origin_fullPath hroot, steps_fullPath_render hproper', if_neg (by simp), hcut, hcut']
    rcases FileTree.resolve_fewer (Nat.le_trans hk' hk) l [name] with heq | htoo
    · exact .inl heq
    · exact .inr ⟨_, .inr (.inr rfl), htoo⟩
  · exact .inr ⟨c, .of_start hc, hfail⟩

theorem files_fileAt_eq {rel f : Text} {e : Entry} (h : f ∈ (fileAt t cwd root rel e).files) :
    f = rel ∧ isDirectory t cwd root rel e = .ok false := by
  unfold fileAt at h
  split at h
  · cases h
  · rename_i hfile
    exact ⟨List.mem_singleton.mp h, hfile⟩
  · cases h

theorem not_directory_of_isDirectory {e : Entry} (he : t.get? (l ++ [name]) = some e)
    (hlocate : t.locate cwd (fullPath root rel) =
        FileTree.resolve t FileTree.linkLimit l [name] ∨
      ∃ c, Refused c ∧ t.locate cwd (fullPath root rel) = .error c)
    (hname : Path.ProperName name) (h : isDirectory t cwd root rel e = .ok false) :
    ∀ x, FileTree.resolve t FileTree.linkLimit l [name] = .ok x → t.get? x ≠ some .directory := by
  intro x hx hdirectory
  cases e with
  | directory => cases h
  | file content mode =>
    have hlast : FileTree.resolve t FileTree.linkLimit l ([] ++ [name]) = .ok x := hx
    obtain ⟨dir, hdir, hend⟩ := FileTree.resolve_snoc hlast
    rw [FileTree.resolve_nil] at hdir
    cases hdir
    obtain ⟨-, e', he', hend⟩ := hend.named hname.2.2.1 hname.2.2.2
    rw [he] at he'
    cases he'
    rw [hend (by simp), he] at hdirectory
    cases hdirectory
  | link target =>
    rcases hlocate with hlocate | ⟨c, hc, hfail⟩
    · simp [isDirectory, FileTree.stat, hlocate, hx, hdirectory, Entry.isDirectory] at h
    · simp [isDirectory, FileTree.stat, hfail, hc.ne_noEntry] at h

theorem walk_visited (hnames : t.ProperNames) (hX : t.locate cwd root = .ok X) (depth : Nat)
    (dir : List Text) (hproper : ∀ c ∈ dir, Path.ProperName c) :
    ∀ f ∈ (walk t cwd root depth (Path.render false dir)).files,
      ∃ names name d, Visited t X f names name d := by
  induction depth generalizing dir with
  | zero => simp [walk, Found.nothing]
  | succ depth ih =>
    intro f hf
    cases hl : t.locate cwd (fullPath root (Path.render false dir)) with
    | error c =>
      rw [walk, hl] at hf
      simp only at hf
      split at hf <;> cases hf
    | ok l =>
      obtain ⟨hleads, hbelow⟩ := locate_fullPath_cut hX hproper hl
      rw [walk_succ depth hl] at hf
      have hnames' : ∀ x ∈ t.children l, ∀ c ∈ dir ++ [x.1], Path.ProperName c := by
        intro x hx c hc
        rcases List.mem_append.mp hc with hc | hc
        · exact hproper c hc
        · exact List.mem_singleton.mp hc ▸ properName_of_child hnames hx
      rcases List.mem_append.mp ((files_andThen _ _).subset hf) with hown | hdeep
      · -- a file of this directory
        obtain ⟨x, hx, hfx⟩ := List.mem_flatMap.mp ((files_inEach _ _).subset hown)
        obtain ⟨hx, hpython⟩ := List.mem_filter.mp hx
        obtain ⟨rfl, hfile⟩ := files_fileAt_eq hfx
        have hname := properName_of_child hnames hx
        have hentry : t.get? (l ++ [x.1]) = some x.2 :=
          FileTree.get?_of_mem (by simp) (FileTree.mem_children.mp hx)
        rw [below_render hproper hname] at hfile
        refine ⟨dir, x.1, l, splitAt_below hproper hname, hnames' x hx, hleads, by simp [hentry],
          not_directory_of_isDirectory hentry (hbelow x.1 hname) hname hfile, hpython⟩
      · -- a file of a directory below
        obtain ⟨x, hx, hfx⟩ := List.mem_flatMap.mp ((files_inEach _ _).subset hdeep)
        unfold walkEntry at hfx
        split at hfx
        · rw [below_render hproper (properName_of_child hnames hx)] at hfx
          exact ih (dir ++ [x.1]) (hnames' x hx) f hfx
        · cases hfx
        · cases hfx

theorem walkRoot_visited (hnames : t.ProperNames) (hX : t.locate cwd root = .ok X) {f : Text}
    (hf : f ∈ (walkRoot t cwd root).1) : ∃ names name d, Visited t X f names name d := by
  unfold walkRoot at hf
  split at hf
  · cases hf
  split at hf
  · split at hf <;> cases hf
  split at hf
  · exact walk_visited hnames hX _ [] (by simp) f hf
  · cases hf

/-- The path of a visited file, joined to the root, leads where the entry leads, or is refused. -/
theorem Visited.locate_join (h : Visited t X rel names name d) (hroot : root ≠ [])
    (hclean : LeadsClean t cwd root X) :
    t.locate cwd (Path.join root rel) = FileTree.resolve t FileTree.linkLimit d [name] ∨
      ∃ c, Refused c ∧ t.locate cwd (Path.join root rel) = .error c := by
  have hproper : ∀ c ∈ Text.splitAt '/' rel, Path.ProperName c := by
    rw [h.split]
    exact h.proper
  rcases locate_join_cut hroot hclean hproper with hlocate | hrefused
  · obtain ⟨k, hk, hcut⟩ := FileTree.resolve_cut h.leads
    rw [hlocate, h.split, hcut]
    rcases FileTree.resolve_fewer hk d [name] with heq | htoo
    · exact .inl heq
    · exact .inr ⟨_, .inr (.inr rfl), htoo⟩
  · exact .inr hrefused

theorem locate_of_validateDirectory (h : Package.validateDirectory t cwd root = .ok ()) :
    ∃ X, t.locate cwd root = .ok X ∧ t.get? X = some .directory := by
  unfold Package.validateDirectory FileTree.stat at h
  cases hX : t.locate cwd root with
  | error c =>
    simp only [hX] at h
    split at h <;> cases h
  | ok X =>
    simp only [hX] at h
    cases he : t.get? X with
    | none =>
      simp only [he] at h
      cases h
    | some e =>
      simp only [he] at h
      cases e with
      | directory => exact ⟨X, rfl, he⟩
      | file content mode => cases h
      | link target => cases h

/-- For every accepted directory: where its cleaned path leads to it, the marker is looked for in
it, and the path of each scanned file leads to the file that the walk visited below it. That is so
without a step up and without links, and the marker's path names its marker in no other case. -/
theorem stages_agree (t : FileTree) (cwd : Location) (root : Text) (hnames : t.ProperNames)
    (hvalid : Package.validateDirectory t cwd root = .ok ()) :
    ∃ X, t.locate cwd root = .ok X ∧ t.get? X = some .directory ∧
      (Path.above ∉ Text.splitAt '/' root ∨ t.LinkFree → LeadsClean t cwd root X) ∧
      (t.place cwd (Package.markerPath root) = .ok (X ++ [Package.marker]) →
        LeadsClean t cwd root X) ∧
      (LeadsClean t cwd root X →
        (∀ b, Package.isRoot (.plain cwd) t root = .ok b → (b = true ↔ Marked t X)) ∧
        ∀ exclude cancelled files, (pythonFiles t cwd root exclude cancelled).1 = .ok files →
          ∀ path ∈ files, ∃ rel names name d, path = Path.join root rel ∧
            Visited t X rel names name d ∧
            (t.locate cwd path = FileTree.resolve t FileTree.linkLimit d [name] ∨
              ∃ c, Refused c ∧ t.locate cwd path = .error c)) := by
  obtain ⟨X, hX, hdir⟩ := locate_of_validateDirectory hvalid
  have hroot := ne_nil_of_locate hX
  refine ⟨X, hX, hdir, leadsClean_of_locate hX, leadsClean_of_place hroot, fun hclean => ⟨?_, ?_⟩⟩
  · exact fun b hb => isRoot_iff_marked hroot hclean hb
  · intro exclude cancelled files hfiles path hpath
    obtain ⟨rel, hrel, rfl⟩ := List.mem_map.mp
      ((pythonFiles_sublist (Prod.ext hfiles rfl)).subset hpath)
    obtain ⟨names, name, d, hvisited⟩ := walkRoot_visited hnames hX hrel
    exact ⟨rel, names, name, d, rfl, hvisited, hvisited.locate_join hroot hclean⟩

/-- A link to a directory that has a sibling named like a package elsewhere. -/
def strayTree : FileTree where
  entries :=
    [([['a']], .directory), ([['a'], ['b']], .directory), ([['a'], ['p']], .directory),
      ([['a'], ['p'], "x.py".toList], .file [] 0o644),
      (["link".toList], .link "a/b".toList),
      ([['p']], .directory), ([['p'], Package.marker], .file [] 0o644),
      ([['p'], "x.py".toList], .file [] 0o644)]
  nodup := by decide

/-- A step up that follows no link: the package is the one that was checked. -/
theorem stages_agree_plain :
    Package.validateDirectory strayTree [] "a/../p/".toList = .ok () ∧
      Package.isRoot (.plain []) strayTree "a/../p/".toList = .ok true ∧
      Marked strayTree [['p']] := by
  have hvalid : Package.validateDirectory strayTree [] "a/../p/".toList = .ok () := by
    decide +kernel
  have hroot : Package.isRoot (.plain []) strayTree "a/../p/".toList = .ok true := by
    decide +kernel
  have hX : strayTree.locate [] "a/../p/".toList = .ok [['p']] := by decide +kernel
  have hclean : LeadsClean strayTree [] "a/../p/".toList [['p']] := by
    unfold LeadsClean
    decide +kernel
  obtain ⟨X, hX', -, -, -, hagree⟩ :=
    stages_agree strayTree [] "a/../p/".toList (by decide) hvalid
  rw [hX] at hX'
  cases hX'
  exact ⟨hvalid, hroot, ((hagree hclean).1 true hroot).mp rfl⟩

/-- A step up that follows a link: the directory that is checked and walked has no marker, and yet
it is taken for a package, and the path of its file leads to another file. -/
theorem stages_disagree :
    Package.validateDirectory strayTree [] "link/../p".toList = .ok () ∧
      strayTree.locate [] "link/../p".toList = .ok [['a'], ['p']] ∧
      ¬ Marked strayTree [['a'], ['p']] ∧
      Package.isRoot (.plain []) strayTree "link/../p".toList = .ok true ∧
      (walkRoot strayTree [] "link/../p".toList).1 = ["x.py".toList] ∧
      (pythonFiles strayTree [] "link/../p".toList [] false).1 = .ok ["p/x.py".toList] ∧
      strayTree.locate [] "p/x.py".toList = .ok [['p'], "x.py".toList] := by
  refine ⟨by decide +kernel, by decide +kernel, ?_, by decide +kernel, by decide +kernel,
    by decide +kernel, by decide +kernel⟩
  rintro ⟨l, e, hl, -, -⟩
  have hmissing : FileTree.resolve strayTree FileTree.linkLimit [['a'], ['p']] [Package.marker] =
      .error .noEntry := by decide +kernel
  rw [hmissing] at hl
  cases hl

end AbsoluteImports.Scan
