import AbsoluteImports.Proofs.Conversion.Outcome
import AbsoluteImports.Proofs.FileTree.Likeness

/-!
# Files that are converted do not matter to each other

Files are converted one after the other, each in the tree that the one before left. Without links
that makes no difference: every result is the one that the file has in the first tree, whatever
failed or changed before it. The store may fail; whether it does depends on the path alone, and so
does the number in the name of a temporary file, which the program draws at random.
-/

namespace AbsoluteImports

/-- What the tree does not say about files: paths that cannot be read, and paths that cannot be
written, each with the error that is met, and the number that the temporary file for a path gets. -/
structure Faults where
  read : Text → Option SourceFile.Error
  write : Text → Option SourceFile.Error
  tag : Text → Nat

def Faults.none : Faults := ⟨fun _ => .none, fun _ => .none, fun _ => FileTree.firstTag⟩

/-- The files of the tree itself, where reading and writing some paths fails. -/
def FileAccess.faulty (faults : Faults) (cwd : Location) : FileAccess where
  isFile t path := SourceFile.isFile t cwd path
  read t path :=
    match faults.read path with
    | some e => .error e
    | none => SourceFile.read t cwd path
  write t path d :=
    match faults.write path with
    | some e => (.error e, t)
    | none => SourceFile.write t cwd path d (faults.tag path)

theorem FileAccess.plainOrFails_faulty (faults : Faults) (cwd : Location) :
    (FileAccess.faulty faults cwd).PlainOrFails cwd := by
  refine ⟨fun t path => ?_, fun t path d => ?_⟩
  · simp only [FileAccess.faulty]
    split
    · exact .inr ⟨_, rfl⟩
    · exact .inl rfl
  · simp only [FileAccess.faulty]
    split
    · exact .inr ⟨_, t, rfl, fun _ => rfl⟩
    · exact .inl ⟨faults.tag path, rfl⟩

/-- The same conversion with other numbers for its temporary files. -/
def Converter.redrawn (c : Converter) (faults : Faults) (cwd : Location) (tags : Text → Nat) :
    Converter :=
  { c with files := .faulty { faults with tag := tags } cwd }

theorem Converter.files_redrawn (c : Converter) (faults : Faults) (cwd : Location)
    (tags : Text → Nat) :
    (c.redrawn faults cwd tags).files = .faulty { faults with tag := tags } cwd := rfl

theorem Converter.read_redrawn {c : Converter} {faults : Faults} {cwd : Location}
    (hfiles : c.files = .faulty faults cwd) (tags : Text → Nat) (t : FileTree) (path : Text) :
    (c.redrawn faults cwd tags).files.read t path = c.files.read t path := by
  rw [hfiles]
  rfl

/-! ### One file -/

section OneFile

variable {t u : FileTree} {cwd : Location} {path : Text}

/-- A path leads to the same entry in two trees, if to any. -/
def FileTree.SameAt (t u : FileTree) (cwd : Location) (path : Text) : Prop :=
  ∀ l, t.locate cwd path = .ok l → u.get? l = t.get? l

theorem FileTree.readFile_congr (h : t.SameShape u) (hown : t.SameAt u cwd path) :
    u.readFile cwd path = t.readFile cwd path := by
  unfold FileTree.readFile
  rw [← FileTree.locate_congr h]
  cases hl : t.locate cwd path with
  | error c => rfl
  | ok l => simp only [hown l hl]

theorem FileTree.replacedMode_congr (h : t.SameShape u) (hown : t.SameAt u cwd path) :
    u.replacedMode cwd path = t.replacedMode cwd path := by
  unfold FileTree.replacedMode FileTree.stat
  rw [← FileTree.locate_congr h]
  cases hl : t.locate cwd path with
  | error c => rfl
  | ok l => simp only [hown l hl]

theorem SourceFile.read_congr (h : t.SameShape u) (hown : t.SameAt u cwd path) :
    SourceFile.read u cwd path = SourceFile.read t cwd path := by
  simp only [SourceFile.read, FileTree.readFile_congr h hown]

theorem SourceFile.write_congr (h : t.Alike u) (hown : t.SameAt u cwd path) (d : Document)
    (tag : Nat) :
    (SourceFile.write u cwd path d tag).1 = (SourceFile.write t cwd path d tag).1 := by
  have hmode := FileTree.replacedMode_congr h.sameShape hown
  have hreplace := FileTree.replaceFile_congr h hmode.symm d.content tag
  unfold SourceFile.write
  obtain ⟨r, left, ht⟩ : ∃ r left, t.replaceFile cwd path d.content tag = (r, left) := ⟨_, _, rfl⟩
  obtain ⟨r', left', hu⟩ : ∃ r left, u.replaceFile cwd path d.content tag = (r, left) :=
    ⟨_, _, rfl⟩
  rw [ht, hu] at hreplace
  cases hreplace
  rw [ht, hu]
  cases r with
  | error e => rfl
  | ok _ => rfl

namespace Conversion

variable {c : Converter} {faults : Faults}

/-- A tree in which the file is read and written alike is handled in the same way, but for what a
write leaves. -/
theorem Handles.congr {package : Text} {left : FileTree} {r : Result} {wrote : Bool}
    (h : Handles c package t path r wrote left)
    (hread : c.files.read u path = c.files.read t path)
    (hwrite : ∀ d, (c.files.write u path d).1 = (c.files.write t path d).1) :
    ∃ left', Handles c package u path r wrote left' := by
  cases h with
  | unread e ht => exact ⟨_, .unread e (hread.trans ht)⟩
  | still d ht hnone => exact ⟨_, .still d (hread.trans ht) hnone⟩
  | reported d ht hsome hdry => exact ⟨_, .reported d (hread.trans ht) hsome hdry⟩
  | written d left ht hsome hdry hw =>
    refine ⟨_, .written d _ (hread.trans ht) hsome hdry (Prod.ext ?_ rfl)⟩
    rw [hwrite, hw]
  | refused d e left ht hsome hdry hw =>
    refine ⟨_, .refused d e _ (hread.trans ht) hsome hdry (Prod.ext ?_ rfl)⟩
    rw [hwrite, hw]

theorem convertFile_congr (hfiles : c.files = .faulty faults cwd) (package : Text) (h : t.Alike u)
    (hown : t.SameAt u cwd path) :
    (convertFile c package u path).result = (convertFile c package t path).result ∧
      (convertFile c package u path).wrote = (convertFile c package t path).wrote := by
  have hread : c.files.read u path = c.files.read t path := by
    simp only [hfiles, FileAccess.faulty, SourceFile.read_congr h.sameShape hown]
  have hwrite : ∀ d, (c.files.write u path d).1 = (c.files.write t path d).1 := by
    intro d
    simp only [hfiles, FileAccess.faulty]
    split
    · rfl
    · exact SourceFile.write_congr h hown d (faults.tag path)
  obtain ⟨left, hhandles⟩ := (convertFile_handles c package t path).congr hread hwrite
  obtain ⟨hresult, hwrote, -⟩ := hhandles.eq
  exact ⟨hresult, hwrote⟩

/-- Without links, what a write leaves is alike. -/
theorem alike_of_write (hfiles : c.files = .faulty faults cwd) (hl : t.LinkFree) {d d' : Document}
    {w : Except SourceFile.Error Unit} {left : FileTree} (hread : c.files.read t path = .ok d)
    (hwrite : c.files.write t path d' = (w, left)) : t.Alike left := by
  have hplain := hfiles ▸ FileAccess.plainOrFails_faulty faults cwd
  simp only [hfiles, FileAccess.faulty] at hwrite
  split at hwrite
  · cases hwrite
    exact .refl t
  simp only [SourceFile.write] at hwrite
  split at hwrite
  · rename_i e left' hreplace
    cases hwrite
    rw [FileTree.replaceFile_error_eq hreplace]
    exact .refl t
  · rename_i left' hreplace
    cases hwrite
    obtain ⟨content, _, _, hcontent, -, -⟩ := hplain.read_eq_ok hread
    obtain ⟨x, m, hx, hfile⟩ := FileTree.readFile_eq_ok.mp hcontent
    obtain ⟨l, old, hplace, hold, hsame⟩ := FileTree.place_of_locate hx hfile
    have hlx : l = x := hsame fun target ht => hl l target (ht ▸ hold)
    subst hlx
    obtain ⟨mode, -, rfl⟩ := FileTree.replaceFile_ok_eq hplace hold hreplace
    exact FileTree.alike_set_file hfile

theorem Handles.alike (hfiles : c.files = .faulty faults cwd) (hl : t.LinkFree) {package : Text}
    {left : FileTree} {r : Result} {wrote : Bool} (h : Handles c package t path r wrote left) :
    t.Alike left := by
  cases h with
  | written d left hread hsome hdry hw => exact alike_of_write hfiles hl hread hw
  | refused d e left hread hsome hdry hw => exact alike_of_write hfiles hl hread hw
  | _ => exact .refl t

theorem convertFile_alike (hfiles : c.files = .faulty faults cwd) (package path : Text)
    (hl : t.LinkFree) :
    t.Alike (convertFile c package t path).tree :=
  (convertFile_handles c package t path).alike hfiles hl

end Conversion

end OneFile

/-! ### A list of files -/

namespace Conversion

variable {c : Converter} {faults : Faults} {cwd : Location}

theorem convertFiles_never_cons (c : Converter) (package : Text) (reads : Nat) (t : FileTree)
    (path : Text) (rest : List Text) :
    convertFiles c package .never reads t (path :: rest) =
      (convertFile c package t path ::
        (convertFiles c package .never (reads + 1) (convertFile c package t path).tree rest).1,
        (convertFiles c package .never (reads + 1)
          (convertFile c package t path).tree rest).2) := by
  rw [convertFiles]
  rfl

/-- Files that leave the tree as it is are all converted in that tree. -/
theorem convertFiles_of_still {package : Text} {t : FileTree} (reads : Nat) {paths : List Text}
    (h : ∀ path ∈ paths, (convertFile c package t path).tree = t) :
    convertFiles c package .never reads t paths = (paths.map (convertFile c package t), t) := by
  induction paths generalizing reads with
  | nil => rfl
  | cons path rest ih =>
    rw [convertFiles_never_cons, h path (List.mem_cons_self ..),
      ih (reads + 1) fun q hq => h q (List.mem_cons_of_mem _ hq)]
    rfl

theorem Handles.tree_of_dryRun {package path : Text} {t left : FileTree} {r : Result}
    {wrote : Bool} (h : Handles c package t path r wrote left) (hdry : c.dryRun = true) :
    left = t := by
  cases h with
  | written d left hread hsome hreal =>
    rw [hdry] at hreal
    cases hreal
  | refused d e left hread hsome hreal =>
    rw [hdry] at hreal
    cases hreal
  | _ => rfl

theorem tree_of_dryRun (hdry : c.dryRun = true) (package : Text) (t : FileTree) (path : Text) :
    (convertFile c package t path).tree = t :=
  (convertFile_handles c package t path).tree_of_dryRun hdry

/-- Files are converted as if each were the first: the tree may be any that is alike and holds
what the files to come held. -/
theorem convertFiles_map (hfiles : c.files = .faulty faults cwd) (package : Text) (reads : Nat)
    {t u : FileTree} {paths : List Text} (hl : t.LinkFree) (hapart : Scan.Apart t cwd paths)
    (halike : t.Alike u) (hown : ∀ path ∈ paths, t.SameAt u cwd path) :
    t.Alike (convertFiles c package .never reads u paths).2 ∧
      (convertFiles c package .never reads u paths).1.map (fun r => (r.result, r.wrote)) =
        paths.map fun path =>
          ((convertFile c package t path).result, (convertFile c package t path).wrote) := by
  induction paths generalizing reads u with
  | nil => exact ⟨halike, rfl⟩
  | cons path rest ih =>
    obtain ⟨hfirst, hrest⟩ := List.pairwise_cons.mp hapart
    have hpath := hown path (List.mem_cons_self ..)
    have hlu : u.LinkFree := halike.sameShape.linkFree hl
    obtain ⟨hresult, hwrote⟩ := convertFile_congr hfiles package halike hpath
    have hstep := convertFile_alike hfiles package path hlu
    -- a later file is elsewhere, so that it is still what it was
    have hlater : ∀ q ∈ rest, t.SameAt (convertFile c package u path).tree cwd q := by
      intro q hq l hlq
      have hother : u.locate cwd path ≠ .ok l := by
        intro hlp
        rw [← FileTree.locate_congr halike.sameShape] at hlp
        exact hfirst q hq l hlp hlq
      have hconverts := convertFile_converts (hfiles ▸ FileAccess.plainOrFails_faulty faults cwd)
        package u path
      rw [hconverts.frame hlu hother]
      exact hown q (List.mem_cons_of_mem _ hq) l hlq
    obtain ⟨htree, hruns⟩ := ih (reads + 1) hrest (halike.trans hstep) hlater
    rw [convertFiles_never_cons]
    refine ⟨htree, ?_⟩
    simp only [List.map_cons, hruns, hresult, hwrote]

theorem convertFiles_results (hfiles : c.files = .faulty faults cwd) (package : Text)
    {t : FileTree} {paths : List Text} (hl : t.LinkFree) (hapart : Scan.Apart t cwd paths) :
    (convertFiles c package .never 0 t paths).1.map (·.result) =
      paths.map fun path => (convertFile c package t path).result := by
  have hmap := (convertFiles_map hfiles package 0 hl hapart (.refl t) fun _ _ _ _ => rfl).2
  have hfst := congrArg (List.map Prod.fst) hmap
  rwa [List.map_map, List.map_map] at hfst

/-! ### The whole run -/

theorem convertFiles_eq_never {package : Text} {cancel : Cancellation} {reads : Nat} {t : FileTree}
    {paths : List Text}
    (h : cancel.seen (reads + (convertFiles c package cancel reads t paths).1.length) = false) :
    convertFiles c package cancel reads t paths = convertFiles c package .never reads t paths := by
  induction paths generalizing reads t with
  | nil => rfl
  | cons path rest ih =>
    rw [convertFiles] at h ⊢
    rw [convertFiles_never_cons]
    split
    · rename_i hseen
      simp only [hseen, ↓reduceIte, List.length_nil, Nat.add_zero] at h
      cases h
    · rename_i hseen
      simp only [hseen, Bool.false_eq_true, ↓reduceIte, List.length_cons] at h
      have hrest : convertFiles c package cancel (reads + 1) (convertFile c package t path).tree
          rest = convertFiles c package .never (reads + 1) (convertFile c package t path).tree
            rest := by
        apply ih
        rw [← h]
        congr 1
        omega
      simp only [hrest]

/-- The call gets as far as the files of a scan: the directory is there, it is a package, and the
scan has a result. -/
structure Reaches (c : Converter) (t : FileTree) (cwd : Location) (dir : Text)
    (files : List Text) : Prop where
  directory : Package.validateDirectory t cwd dir = .ok ()
  root : Package.isRoot c.files t dir = .ok true
  scanned : ∃ events, Scan.pythonFiles t cwd dir c.exclude false = (.ok files, events)

theorem Reaches.redrawn {t : FileTree} {dir : Text} {files : List Text}
    (hfiles : c.files = .faulty faults cwd) (h : Reaches c t cwd dir files) (tags : Text → Nat) :
    Reaches (c.redrawn faults cwd tags) t cwd dir files := by
  refine ⟨h.directory, ?_, h.scanned⟩
  have hroot := h.root
  rw [hfiles] at hroot
  exact hroot

theorem Reaches.run_eq {t : FileTree} {dir : Text} {files : List Text}
    (h : Reaches c t cwd dir files) :
    (run c .never t cwd dir).summary = some ⟨dir, Package.name cwd dir, false, c.dryRun,
        (convertFiles c (Package.name cwd dir) .never 0 t files).1.map (·.result)⟩ ∧
      (run c .never t cwd dir).error = none ∧
      (run c .never t cwd dir).tree =
        (convertFiles c (Package.name cwd dir) .never 0 t files).2 ∧
      (run c .never t cwd dir).writes =
        ((convertFiles c (Package.name cwd dir) .never 0 t files).1.filter (·.wrote)).map
          (·.result.path) := by
  obtain ⟨hvalid, hroot, events, hscan⟩ := h
  have hnever : ∀ n, Cancellation.never.seen n = false := fun _ => rfl
  simp [run, hvalid, hroot, hnever, hscan]

theorem reaches_of_ok {cancel : Cancellation} {t : FileTree} {dir : Text}
    (hroot : Package.isRoot c.files t dir = .ok true)
    (hok : (run c cancel t cwd dir).error = none) :
    (∃ files, Reaches c t cwd dir files) ∧ run c cancel t cwd dir = run c .never t cwd dir := by
  unfold run at hok ⊢
  cases hvalid : Package.validateDirectory t cwd dir with
  | error e => simp [hvalid, Run.ended] at hok
  | ok u =>
    simp only [hvalid, hroot] at hok ⊢
    obtain ⟨r, events, hscan⟩ :
        ∃ r events, Scan.pythonFiles t cwd dir c.exclude (cancel.seen 0) = (r, events) :=
      ⟨_, _, rfl⟩
    cases r with
    | error e => simp [hscan, Run.ended] at hok
    | ok files =>
      simp only [hscan] at hok ⊢
      have hend : cancel.seen
          (convertFiles c (Package.name cwd dir) cancel 0 t files).1.length = false := by
        simpa using hok
      have hstart : cancel.seen 0 = false := by
        cases h0 : cancel.seen 0 with
        | false => rfl
        | true =>
          rw [seen_of_seen_zero h0] at hend
          cases hend
      have hnever : ∀ n, Cancellation.never.seen n = false := fun _ => rfl
      have hfiles := convertFiles_eq_never (c := c) (t := t) (by rw [Nat.zero_add]; exact hend)
      rw [hstart] at hscan
      refine ⟨⟨files, hvalid, hroot, events, hscan⟩, ?_⟩
      rw [hfiles] at hend ⊢
      simp only [hnever, hscan, hend]

end Conversion

end AbsoluteImports
