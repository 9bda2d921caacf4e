import AbsoluteImports.Proofs.Conversion.Calls

/-!
# What a dry run foretells

A dry run reads every file in the tree that it finds, while a run that writes reads it in the tree
that the files before it left. Without links both read the same, so a dry run foretells the real
one file by file. It cannot know whether a file will be written: there, and only there, the real
result may be the failure of the write.
-/

namespace AbsoluteImports.Conversion

variable {c : Converter} {faults : Faults} {cwd : Location} {package path dir : Text}
  {t u : FileTree} {files : List Text}

/-! ### One file -/

/-- What storing a file gives, when it is read and converted in a tree. -/
def written (c : Converter) (package : Text) (t : FileTree) (path : Text) :
    Except SourceFile.Error Unit :=
  (c.files.read t path).bind fun d => (c.files.write t path (convertedDocument package d)).1

/-- The result `d` of a dry run foretells the result `r` of a run in which storing the file gives
`w`. -/
structure Foretells (w : Except SourceFile.Error Unit) (d r : Result) : Prop where
  path : r.path = d.path
  kept : d.outcome ≠ .updated ∨ w = .ok () → r = d
  refused : ∀ e, d.outcome = .updated → w = .error e → r = ⟨d.path, .failed, [], some e⟩

theorem Handles.foretold {r : Result} {wrote : Bool} {left : FileTree}
    (h : Handles { c with dryRun := false } package u path r wrote left)
    (hread : c.files.read u path = c.files.read t path) :
    Foretells (Conversion.written c package u path)
      (convertFile { c with dryRun := true } package t path).result r := by
  cases h with
  | unread e hu =>
    have hdry : Handles { c with dryRun := true } package t path _ _ _ :=
      .unread e (hread.symm.trans hu)
    rw [hdry.eq.1]
    exact ⟨rfl, fun _ => rfl, fun _ hupdated => by cases hupdated⟩
  | still d hu hnone =>
    have hdry : Handles { c with dryRun := true } package t path _ _ _ :=
      .still d (hread.symm.trans hu) hnone
    rw [hdry.eq.1]
    exact ⟨rfl, fun _ => rfl, fun _ hupdated => by cases hupdated⟩
  | reported d hu hsome hreal => cases hreal
  | written d left hu hsome hreal hw =>
    have hdry : Handles { c with dryRun := true } package t path _ _ _ :=
      .reported d (hread.symm.trans hu) hsome rfl
    have hstored : Conversion.written c package u path = .ok () := by
      simp only at hu hw
      simp only [Conversion.written, hu, Except.bind, hw]
    rw [hdry.eq.1, hstored]
    exact ⟨rfl, fun _ => rfl, fun _ _ herror => by cases herror⟩
  | refused d e left hu hsome hreal hw =>
    have hdry : Handles { c with dryRun := true } package t path _ _ _ :=
      .reported d (hread.symm.trans hu) hsome rfl
    have hstored : Conversion.written c package u path = .error e := by
      simp only at hu hw
      simp only [Conversion.written, hu, Except.bind, hw]
    rw [hdry.eq.1, hstored]
    refine ⟨rfl, ?_, ?_⟩
    · rintro (hother | hok)
      · exact absurd rfl hother
      · cases hok
    · intro e' _ herror
      cases herror
      rfl

theorem convertFile_foretells (package : Text)
    (hread : c.files.read u path = c.files.read t path) :
    Foretells (written c package u path)
      (convertFile { c with dryRun := true } package t path).result
      (convertFile { c with dryRun := false } package u path).result :=
  (convertFile_handles { c with dryRun := false } package u path).foretold hread

/-! ### A list of files -/

theorem convertFiles_getElem? (c : Converter) (package : Text) (reads : Nat) (t : FileTree)
    (paths : List Text) (i : Nat) :
    (convertFiles c package .never reads t paths).1[i]? =
      paths[i]?.map (convertFile c package
        (convertFiles c package .never reads t (paths.take i)).2) := by
  induction paths generalizing reads t i with
  | nil => simp [convertFiles]
  | cons path rest ih =>
    cases i with
    | zero =>
      rw [convertFiles_never_cons]
      rfl
    | succ i =>
      rw [convertFiles_never_cons, List.take_succ_cons, convertFiles_never_cons]
      simp only [List.getElem?_cons_succ]
      exact ih (reads + 1) _ i

theorem read_after (hfiles : c.files = .faulty faults cwd) (hdry : c.dryRun = false)
    (package : Text) (hl : t.LinkFree) (hapart : Scan.Apart t cwd files) {i : Nat}
    (hpath : files[i]? = some path) :
    c.files.read (convertFiles c package .never 0 t (files.take i)).2 path =
      c.files.read t path := by
  have hplain := hfiles ▸ FileAccess.plainOrFails_faulty faults cwd
  have hsplit : (files.take i ++ files.drop i).Pairwise
      fun p q => ∀ l, t.locate cwd p = .ok l → t.locate cwd q ≠ .ok l := by
    rw [List.take_append_drop]
    exact hapart
  obtain ⟨hbefore, -, hothers⟩ := List.pairwise_append.mp hsplit
  have hmem : path ∈ files.drop i := by
    refine List.mem_of_getElem? (i := 0) ?_
    rw [List.getElem?_drop, Nat.add_zero, hpath]
  obtain ⟨halike, -⟩ := convertFiles_map hfiles package 0 hl hbefore (.refl t) fun _ _ _ _ => rfl
  have hown : t.SameAt (convertFiles c package .never 0 t (files.take i)).2 cwd path := by
    intro l hlocate
    apply (convertFiles_accounts hplain hdry package .never 0 hl hbefore).untouched
    intro r hr hrl
    obtain ⟨done, hdone, rfl⟩ := List.mem_map.mp hr
    have hearlier : done.result.path ∈ files.take i :=
      (convertFiles_paths _ package .never 0 t (files.take i)).subset
        (List.mem_map.mpr ⟨done, hdone, rfl⟩)
    exact hothers _ hearlier path hmem l hrl hlocate
  simp only [hfiles, FileAccess.faulty, SourceFile.read_congr halike.sameShape hown]

/-! ### The whole call -/

/-- A dry call announces a call that writes; `w` is what storing a file gives after the files
before it. -/
inductive Run.Announces (w : (before : List Text) → Text → Except SourceFile.Error Unit)
    (a b : Run) : Prop
  | stopped (e : Error) (ha : a.error = some e) (hb : b.error = some e)
      (hsummaries : a.summary = none ∧ b.summary = none) (hreads : a.reads = [] ∧ b.reads = [])
      (hwrites : b.writes = [])
  | finished (s s' : Summary) (ha : a.summary = some s) (hb : b.summary = some s')
      (herrors : a.error = none ∧ b.error = none)
      (hlength : s.results.length = s'.results.length)
      (heach : ∀ (i : Nat) (d r : Result), s.results[i]? = some d → s'.results[i]? = some r →
        Foretells (w ((s.results.map (·.path)).take i) d.path) d r)

theorem Run.Stopped.announces {w : List Text → Text → Except SourceFile.Error Unit} {a b : Run}
    {e : Option Error} (ha : a.Stopped { c with dryRun := true } t dir e)
    (hb : b.Stopped { c with dryRun := false } t dir e) : Run.Announces w a b := by
  cases e with
  | some e =>
    exact .stopped e ha.error hb.error ⟨ha.summary, hb.summary⟩ ⟨ha.reads, hb.reads⟩ hb.writes
  | none => exact .finished _ _ ha.summary hb.summary ⟨ha.error, hb.error⟩ rfl (by simp)

theorem Reaches.announces (hnames : t.ProperNames) (hlinks : t.LinkFree)
    (hfiles : c.files = .faulty faults cwd) (h : Reaches c t cwd dir files) :
    Run.Announces (fun before path => written c (Package.name cwd dir)
        (convertFiles { c with dryRun := false } (Package.name cwd dir) .never 0 t before).2 path)
      (run { c with dryRun := true } .never t cwd dir)
      (run { c with dryRun := false } .never t cwd dir) := by
  obtain ⟨hvalid, hroot, events, hscan⟩ := h
  have hapart := Scan.pythonFiles_apart hnames hlinks hscan
  have hstill : convertFiles { c with dryRun := true } (Package.name cwd dir) .never 0 t files =
      (files.map (convertFile { c with dryRun := true } (Package.name cwd dir) t), t) :=
    convertFiles_of_still 0 fun path _ => tree_of_dryRun rfl (Package.name cwd dir) t path
  have hdry := Reaches.finished (c := { c with dryRun := true })
    ⟨hvalid, hroot, events, hscan⟩ hnames hlinks hfiles
  have hreal := Reaches.finished (c := { c with dryRun := false })
    ⟨hvalid, hroot, events, hscan⟩ hnames hlinks hfiles
  have hpaths := hdry.paths hfiles
  refine .finished _ _ hdry.summary hreal.summary ⟨hdry.error, hreal.error⟩
    (hdry.length.trans hreal.length.symm) ?_
  intro i d r hd hr
  simp only [hpaths]
  rw [hstill, List.map_map, List.getElem?_map] at hd
  rw [List.getElem?_map, convertFiles_getElem?] at hr
  cases hpath : files[i]? with
  | none =>
    rw [hpath] at hd
    cases hd
  | some path =>
    rw [hpath] at hd hr
    cases hd
    cases hr
    have hsame : (convertFile { c with dryRun := true } (Package.name cwd dir) t path).result.path =
        path :=
      alone_path (c := { c with dryRun := true }) hfiles _ t path
    have hread := read_after (c := { c with dryRun := false }) hfiles rfl (Package.name cwd dir)
      hlinks hapart hpath
    simp only [Function.comp_apply, hsame]
    exact convertFile_foretells (c := c) (Package.name cwd dir) hread

/-- A dry call over a tree without links foretells the call that writes. For the runs that convert
one file after the other, storing a file is judged in the tree that the files before it left. For
workers whose steps follow each other in any order it may be judged in the first tree. -/
theorem dryRun_foretells (c : Converter) (faults : Faults) (t : FileTree) (cwd : Location)
    (dir : Text) (hnames : t.ProperNames) (hlinks : t.LinkFree)
    (hfiles : c.files = .faulty faults cwd) :
    Run.Announces (fun before path => written c (Package.name cwd dir)
        (convertFiles { c with dryRun := false } (Package.name cwd dir) .never 0 t before).2 path)
      (run { c with dryRun := true } .never t cwd dir)
      (run { c with dryRun := false } .never t cwd dir) ∧
    ∀ a b, Called { c with dryRun := true } faults cwd t dir false a →
      Called { c with dryRun := false } faults cwd t dir false b →
      Run.Announces (fun _ path => written c (Package.name cwd dir) t path) a b := by
  cases hout : outset c t cwd dir with
  | error e =>
    constructor
    · exact Run.Stopped.announces (run_stopped hout) (run_stopped hout)
    · intro a b ha hb
      exact Run.Stopped.announces (ha.stopped hout) (hb.stopped hout)
  | ok files =>
    refine ⟨(reaches_of_outset hout).announces hnames hlinks hfiles, ?_⟩
    intro a b ha hb
    obtain ⟨ds, hdry⟩ := ha.finished hnames hlinks hfiles hout
    obtain ⟨rs, hreal⟩ := hb.finished hnames hlinks hfiles hout
    refine .finished _ _ hdry.summary hreal.summary ⟨hdry.error, hreal.error⟩
      (hdry.length.trans hreal.length.symm) ?_
    intro i d r hd hr
    cases hpath : files[i]? with
    | none =>
      have hshort := hdry.length
      have hin := (List.getElem?_eq_some_iff.mp hd).1
      have hout := List.getElem?_eq_none_iff.mp hpath
      simp only at hin
      omega
    | some path =>
      obtain rfl := hdry.result_eq hd hpath
      obtain rfl := hreal.result_eq hr hpath
      have hsame : (alone { c with dryRun := true } (Package.name cwd dir) t path).path = path :=
        alone_path (c := { c with dryRun := true }) hfiles _ t path
      simp only [hsame]
      exact convertFile_foretells (c := c) (Package.name cwd dir) rfl

/-- Two files are to be updated, and the second of them cannot be written. -/
theorem dryRun_foretells_pairPackage :
    (run { pairConverter with dryRun := true } .never pairPackage [] ['p']).summary.map
      (fun s => s.results.map (·.outcome)) = some [.unchanged, .updated, .updated] ∧
    (run { pairConverter with dryRun := false } .never pairPackage [] ['p']).summary.map
      (fun s => s.results.map (·.outcome)) = some [.unchanged, .updated, .failed] ∧
    Run.Announces (fun before path => written pairConverter (Package.name [] ['p'])
        (convertFiles { pairConverter with dryRun := false } (Package.name [] ['p']) .never 0
          pairPackage before).2 path)
      (run { pairConverter with dryRun := true } .never pairPackage [] ['p'])
      (run { pairConverter with dryRun := false } .never pairPackage [] ['p']) :=
  ⟨by decide +kernel, by decide +kernel,
    (dryRun_foretells pairConverter pairFaults pairPackage [] ['p'] (by decide)
      (FileTree.linkFree_of_entries (by decide)) rfl).1⟩

end AbsoluteImports.Conversion
