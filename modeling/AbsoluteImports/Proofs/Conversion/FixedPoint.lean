import AbsoluteImports.Proofs.Conversion.Independence
import AbsoluteImports.Proofs.Document
import AbsoluteImports.Proofs.Encoding.Rereading
import AbsoluteImports.Proofs.ImportLine.Absolute
import AbsoluteImports.Proofs.Path.Elements
import AbsoluteImports.Proofs.Scan.Likeness

/-!
# A converted tree is a fixed point

A second run over a package has nothing left to do. Three facts come together: what was written is
read again as the lines that were written, a line that was made absolute stays as it is, and the
tree that was left is scanned as the one before. The main statement is `run_again`.
-/

namespace AbsoluteImports

/-- What a second run says of a file: one that was updated has nothing left to change, and of any
other the same is said again. -/
def Result.settled (r : Result) : Result :=
  if r.outcome = .updated then ⟨r.path, .unchanged, [], none⟩ else r

theorem Result.settled_path (r : Result) : r.settled.path = r.path := by
  unfold Result.settled
  split
  · rfl
  · rfl

theorem Result.settled_outcome (r : Result) : r.settled.outcome ≠ .updated := by
  unfold Result.settled
  split
  · simp
  · assumption

theorem Result.filter_settled (rs : List Result) :
    (rs.map Result.settled).filter (·.outcome = .failed) = rs.filter (·.outcome = .failed) := by
  induction rs with
  | nil => rfl
  | cons r rs ih =>
    rw [List.map_cons, List.filter_cons, List.filter_cons, ih]
    by_cases h : r.outcome = .updated
    · simp [Result.settled, h]
    · have hsettled : r.settled = r := if_neg h
      rw [hsettled]

/-! ### Lines and package names -/

theorem absoluteLine_absoluteLine {package : Text} (h : ImportLine.Settled package) (line : Text) :
    absoluteLine package (absoluteLine package line) = absoluteLine package line := by
  rw [absoluteLine_eq_iff]
  cases hs : ImportLine.absolute? package line with
  | none =>
    have hline : absoluteLine package line = line := absoluteLine_eq_iff.mpr hs
    rw [hline, hs]
  | some text =>
    obtain ⟨v, hv, -, rfl, -⟩ := absolute?_eq_some_iff.mp hs
    have hline : absoluteLine package line = v.absolute package := by
      rw [absoluteLine, hs, Option.getD_some]
    have hnone := h.parse?_absolute hv
    rw [hline, ImportLine.absolute?, hnone]
    rfl

theorem settled_of_name {cwd : Location} {dir : Text}
    (h : (Package.name cwd dir).head? ≠ some '.') : ImportLine.Settled (Package.name cwd dir) := by
  have hne : Package.name cwd dir ≠ [] := Path.base_ne_nil _
  obtain ⟨c, rest, hname⟩ := List.exists_cons_of_ne_nil hne
  rw [hname] at h ⊢
  exact ImportLine.settled_of_head fun hc => h (by rw [hc]; rfl)

namespace Conversion

variable {c : Converter} {faults : Faults} {cwd : Location} {package path : Text}
  {t left : FileTree}

/-! ### One file -/

theorem lines_reread (hpackage : ImportLine.Settled package) (hfeed : '\n' ∉ package)
    (text : Text) (encoding : Encoding) :
    ∀ line ∈ (Document.ofText (absoluteText package text) encoding).lines,
      absoluteLine package line = line := by
  intro line hline
  simp only [Document.ofText, Document.cut_absoluteText hfeed, List.map_map] at hline
  obtain ⟨p, -, rfl⟩ := List.mem_map.mp hline
  exact absoluteLine_absoluteLine hpackage p.1

/-- A file is handled again without a change, in a tree where its result came true. -/
theorem Handles.again {r : Result} {wrote : Bool} {after : FileTree}
    (h : Handles c package t path r wrote after) (hfiles : c.files = .faulty faults cwd)
    (hdry : c.dryRun = false) (hpackage : ImportLine.Settled package) (hfeed : '\n' ∉ package)
    (halike : t.Alike left)
    (hexplains : ∀ l, t.locate cwd path = .ok l → r.Explains package (t.get? l) (left.get? l))
    (hwrote : wrote = true → r.outcome = .updated) :
    Handles c package left path r.settled false left := by
  have hshape := halike.sameShape
  have hreread : t.SameAt left cwd path → c.files.read left path = c.files.read t path := by
    intro hown
    simp only [hfiles, FileAccess.faulty, SourceFile.read_congr hshape hown]
  cases h with
  | unread e hread => exact .unread e ((hreread hexplains).trans hread)
  | still d hread hnone =>
    exact .still d ((hreread fun l hl => (hexplains l hl).1).trans hread) hnone
  | reported d hread hsome hreal =>
    rw [hdry] at hreal
    cases hreal
  | refused d e after hread => cases hwrote rfl
  | written d after hread =>
    have hfault : faults.read path = none := by
      simp only [hfiles, FileAccess.faulty] at hread
      split at hread
      · cases hread
      · assumption
    obtain ⟨content, text, encoding, hcontent, hdecode, rfl⟩ :=
      (hfiles ▸ FileAccess.plainOrFails_faulty faults cwd).read_eq_ok hread
    obtain ⟨l, mode, hl, hfile⟩ := FileTree.readFile_eq_ok.mp hcontent
    obtain ⟨content', mode', text', encoding', hbefore, hdecode', hafter, -⟩ := hexplains l hl
    rw [hfile] at hbefore
    cases hbefore
    rw [hdecode] at hdecode'
    cases hdecode'
    have hcontent' : left.readFile cwd path =
        .ok (Encoding.encode (absoluteText package text) encoding) :=
      FileTree.readFile_eq_ok.mpr
        ⟨l, mode, (FileTree.locate_congr hshape cwd path).symm.trans hl, hafter⟩
    have hdecode'' := Encoding.decode_encode_of_decode hdecode
      (Document.head?_absoluteText package text)
    have hread' : c.files.read left path =
        .ok (Document.ofText (absoluteText package text) encoding) := by
      simp [hfiles, FileAccess.faulty, hfault, SourceFile.read, hcontent', Document.ofContent,
        hdecode'', Except.map]
    exact .still _ hread' (Change.list_eq_nil_iff.mpr (lines_reread hpackage hfeed text encoding))

theorem Handles.redrawn {r : Result} {after : FileTree}
    (h : Handles c package t path r false after) (hfiles : c.files = .faulty faults cwd)
    (tags : Text → Nat) : Handles (c.redrawn faults cwd tags) package t path r false after := by
  have hread := Converter.read_redrawn hfiles tags t path
  cases h with
  | unread e h => exact .unread e (hread.trans h)
  | still d h hnone => exact .still d (hread.trans h) hnone
  | reported d h hsome hdry => exact .reported d (hread.trans h) hsome hdry

theorem convertFile_again (hfiles : c.files = .faulty faults cwd) (hdry : c.dryRun = false)
    (hpackage : ImportLine.Settled package) (hfeed : '\n' ∉ package) (halike : t.Alike left)
    (hexplains : ∀ l, t.locate cwd path = .ok l →
      (convertFile c package t path).result.Explains package (t.get? l) (left.get? l))
    (hwrote : (convertFile c package t path).wrote = true →
      (convertFile c package t path).result.outcome = .updated) (tags : Text → Nat) :
    (convertFile (c.redrawn faults cwd tags) package left path).result =
        (convertFile c package t path).result.settled ∧
      (convertFile (c.redrawn faults cwd tags) package left path).tree = left := by
  have hagain := (convertFile_handles c package t path).again hfiles hdry hpackage hfeed halike
    hexplains hwrote
  obtain ⟨hresult, -, htree⟩ := (hagain.redrawn hfiles tags).eq
  exact ⟨hresult, htree⟩

/-! ### A list of files -/

theorem convertFiles_again (hfiles : c.files = .faulty faults cwd) (hdry : c.dryRun = false)
    (hpackage : ImportLine.Settled package) (hfeed : '\n' ∉ package) {paths : List Text}
    (hl : t.LinkFree) (hapart : Scan.Apart t cwd paths)
    (hleft : (convertFiles c package .never 0 t paths).2 = left)
    (hwrote : ∀ path ∈ paths, (convertFile c package t path).wrote = true →
      (convertFile c package t path).result.outcome = .updated) (tags : Text → Nat) :
    (convertFiles (c.redrawn faults cwd tags) package .never 0 left paths).1.map (·.result) =
        (convertFiles c package .never 0 t paths).1.map (·.result.settled) ∧
      (convertFiles (c.redrawn faults cwd tags) package .never 0 left paths).2 = left := by
  have hplain := hfiles ▸ FileAccess.plainOrFails_faulty faults cwd
  have hresults := convertFiles_results hfiles package hl hapart
  have halike := (convertFiles_map hfiles package 0 hl hapart (.refl t) fun _ _ _ _ => rfl).1
  have haccounts := convertFiles_accounts hplain hdry package .never 0 hl hapart
  rw [hleft] at halike haccounts
  rw [hresults] at haccounts
  have hagain : ∀ path ∈ paths,
      (convertFile (c.redrawn faults cwd tags) package left path).result =
          (convertFile c package t path).result.settled ∧
        (convertFile (c.redrawn faults cwd tags) package left path).tree = left := by
    intro path hpath
    refine convertFile_again hfiles hdry hpackage hfeed halike ?_ (hwrote path hpath) tags
    intro l hlocate
    have hmem : (convertFile c package t path).result ∈
        paths.map fun p => (convertFile c package t p).result :=
      List.mem_map.mpr ⟨path, hpath, rfl⟩
    refine haccounts.explained _ hmem l ?_
    rw [(convertFile_converts hplain package t path).path_eq]
    exact hlocate
  have hstill := convertFiles_of_still (t := left) 0 fun path h => (hagain path h).2
  have hsettled : (convertFiles c package .never 0 t paths).1.map (·.result.settled) =
      paths.map fun path => (convertFile c package t path).result.settled := by
    have hmap := congrArg (List.map Result.settled) hresults
    rwa [List.map_map, List.map_map] at hmap
  rw [hstill, hsettled, List.map_map]
  exact ⟨List.map_congr_left fun path h => (hagain path h).1, rfl⟩

/-! ### The whole run -/

theorem Reaches.congr {u : FileTree} {dir : Text} {files : List Text}
    (hfiles : c.files = .faulty faults cwd) (h : t.Alike u) (hreach : Reaches c t cwd dir files) :
    Reaches c u cwd dir files := by
  obtain ⟨hvalid, hroot, events, hscan⟩ := hreach
  refine ⟨?_, ?_, events, ?_⟩
  · rw [← Package.validateDirectory_congr h.sameShape, hvalid]
  · simp only [Package.isRoot, hfiles, FileAccess.faulty] at hroot ⊢
    rw [← SourceFile.isFile_congr h.sameShape, hroot]
  · rw [← Scan.pythonFiles_congr h, hscan]

theorem updated_of_wrote {package : Text} {files : List Text}
    (hmap : (convertFiles c package .never 0 t files).1.map (fun r => (r.result, r.wrote)) =
      files.map fun path =>
        ((convertFile c package t path).result, (convertFile c package t path).wrote))
    (hwrites : ∀ r ∈ (convertFiles c package .never 0 t files).1.map (·.result),
      r.path ∈ ((convertFiles c package .never 0 t files).1.filter (·.wrote)).map (·.result.path) →
        r.outcome = .updated) :
    ∀ path ∈ files, (convertFile c package t path).wrote = true →
      (convertFile c package t path).result.outcome = .updated := by
  intro path hpath hw
  have hmem : ((convertFile c package t path).result, true) ∈
      files.map fun p => ((convertFile c package t p).result, (convertFile c package t p).wrote) :=
    List.mem_map.mpr ⟨path, hpath, by rw [hw]⟩
  rw [← hmap] at hmem
  obtain ⟨r, hr, heq⟩ := List.mem_map.mp hmem
  obtain ⟨hresult, hwrote⟩ := Prod.mk.inj heq
  rw [← hresult]
  refine hwrites r.result (List.mem_map.mpr ⟨r, hr, rfl⟩) ?_
  exact List.mem_map.mpr ⟨r, List.mem_filter.mpr ⟨hr, hwrote⟩, rfl⟩

/-- After a run over a package without links that returned no error and in which no write failed,
a second run has the same files in the same order, updates none of them, has the same failures,
returns no error and leaves the tree as it is, with whatever numbers it would draw. -/
theorem run_again (c : Converter) (faults : Faults) (cancel : Cancellation) (t : FileTree)
    (cwd : Location) (dir : Text) (summary : Summary) (tags : Text → Nat) (hnames : t.ProperNames)
    (hlinks : t.LinkFree) (hfiles : c.files = .faulty faults cwd) (hdry : c.dryRun = false)
    (hroot : Package.isRoot c.files t dir = .ok true)
    (hdot : (Package.name cwd dir).head? ≠ some '.') (hfeed : '\n' ∉ Package.name cwd dir)
    (hok : (run c cancel t cwd dir).error = none)
    (hsummary : (run c cancel t cwd dir).summary = some summary)
    (hwrites : ∀ r ∈ summary.results, r.path ∈ (run c cancel t cwd dir).writes →
      r.outcome = .updated) :
    ∃ again, (run (c.redrawn faults cwd tags) .never (run c cancel t cwd dir).tree cwd
        dir).summary = some again ∧
      (run (c.redrawn faults cwd tags) .never (run c cancel t cwd dir).tree cwd dir).error = none ∧
      again.results.map (·.path) = summary.results.map (·.path) ∧
      (∀ r ∈ again.results, r.outcome ≠ .updated) ∧
      again.failures = summary.failures ∧
      (run (c.redrawn faults cwd tags) .never (run c cancel t cwd dir).tree cwd dir).tree =
        (run c cancel t cwd dir).tree := by
  obtain ⟨⟨files, hreach⟩, hnever⟩ := reaches_of_ok hroot hok
  rw [hnever] at hsummary hwrites ⊢
  obtain ⟨hsum, -, htree, hwritten⟩ := hreach.run_eq
  rw [hsum] at hsummary
  cases hsummary
  obtain ⟨events, hscan⟩ := hreach.scanned
  have hapart := Scan.pythonFiles_apart hnames hlinks hscan
  have hmap := (convertFiles_map hfiles (Package.name cwd dir) 0 hlinks hapart (.refl t)
    fun _ _ _ _ => rfl)
  rw [hwritten] at hwrites
  have hagain := convertFiles_again hfiles hdry (settled_of_name hdot) hfeed hlinks hapart
    htree.symm (updated_of_wrote hmap.2 hwrites) tags
  have hreach' : Reaches (c.redrawn faults cwd tags) (run c .never t cwd dir).tree cwd dir
      files := by
    rw [htree]
    exact (hreach.congr hfiles hmap.1).redrawn hfiles tags
  obtain ⟨hsum', herror', htree', -⟩ := hreach'.run_eq
  refine ⟨_, hsum', herror', ?_, ?_, ?_, htree'.trans hagain.2⟩
  · simp only [hagain.1, List.map_map, Function.comp_def, Result.settled_path]
  · simp only [hagain.1]
    intro r hr
    obtain ⟨r', -, rfl⟩ := List.mem_map.mp hr
    exact r'.result.settled_outcome
  · have hfailed := Result.filter_settled
      ((convertFiles c (Package.name cwd dir) .never 0 t files).1.map (·.result))
    rw [List.map_map] at hfailed
    simp only [Summary.failures, hagain.1]
    exact hfailed

/-- A package with an import behind a surrogate that stands alone, one between mixed terminators,
one in a file that is no text and one in a file that cannot be read. -/
def roughPackage : FileTree where
  entries :=
    [([['p']], .directory),
      ([['p'], Package.marker], .file [] 0o644),
      ([['p'], "a.py".toList],
        .file (Encoding.encode "x\r\nfrom .b import c\ny\r".toList .utf8Mark) 0o600),
      ([['p'], "bad.py".toList], .file [0xFF] 0o644),
      ([['p'], "no.py".toList], .file (Utf8.encode "from .b import c\n".toList) 0o644),
      ([['p'], "w.py".toList],
        .file ([0xFF, 0xFE, 0x3D, 0xD8, 0x0A, 0x00] ++
          (Utf8.encode "from .b import c".toList).flatMap (fun b => [b, 0])) 0o644)]
  nodup := by decide

def roughFaults : Faults :=
  ⟨fun p => if p = "p/no.py".toList then some (.reported "locked") else none, fun _ => none,
    fun _ => 4294967295⟩

def roughConverter : Converter := ⟨.faulty roughFaults [], 1, [], false⟩

theorem run_again_roughPackage :
    ∃ summary again,
      (run roughConverter .never roughPackage [] ['p']).summary = some summary ∧
      summary.results.map (·.outcome) = [.unchanged, .updated, .failed, .failed, .updated] ∧
      (run (roughConverter.redrawn roughFaults [] fun _ => 7) .never
        (run roughConverter .never roughPackage [] ['p']).tree [] ['p']).summary = some again ∧
      again.results.map (·.path) = summary.results.map (·.path) ∧
      again.failures = summary.failures := by
  obtain ⟨summary, hsummary⟩ : ∃ summary,
      (run roughConverter .never roughPackage [] ['p']).summary = some summary := ⟨_, rfl⟩
  have houtcomes : summary.results.map (·.outcome) =
      [.unchanged, .updated, .failed, .failed, .updated] := by
    have hall : ∀ s ∈ (run roughConverter .never roughPackage [] ['p']).summary,
        s.results.map (·.outcome) = [.unchanged, .updated, .failed, .failed, .updated] := by
      decide +kernel
    exact hall summary hsummary
  have hwrites : ∀ r ∈ summary.results,
      r.path ∈ (run roughConverter .never roughPackage [] ['p']).writes →
        r.outcome = .updated := by
    have hall : ∀ s ∈ (run roughConverter .never roughPackage [] ['p']).summary,
        ∀ r ∈ s.results, r.path ∈ (run roughConverter .never roughPackage [] ['p']).writes →
          r.outcome = .updated := by decide +kernel
    exact hall summary hsummary
  obtain ⟨again, hagain, -, hpaths, -, hfailures, -⟩ :=
    run_again roughConverter roughFaults .never roughPackage [] ['p'] summary (fun _ => 7)
      (by decide) (FileTree.linkFree_of_entries (by decide)) rfl rfl rfl (by decide) (by decide)
      (by decide) hsummary hwrites
  exact ⟨summary, again, hsummary, houtcomes, hagain, hpaths, hfailures⟩

end Conversion

end AbsoluteImports
