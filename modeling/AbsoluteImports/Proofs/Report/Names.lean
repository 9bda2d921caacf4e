import AbsoluteImports.Report
import AbsoluteImports.Proofs.Conversion.Cancellation
import AbsoluteImports.Proofs.Path.Cleaning
import AbsoluteImports.Proofs.Scan.Exactness

/-!
# Names in a report

A scan joins the relative path of a file to its directory, and a report takes the two apart again.
The way from a directory to a path that was joined to it is this path, however the directory is
spelled. So a report shows each file under the relative path that the scan held against its
patterns, and `shown_names` says this of every summary that a conversion gives.
-/

namespace AbsoluteImports

/-! ### The way to a joined path -/

namespace Path

variable {root rel : Text}

theorem dropCommon_append (as bs : List Text) : dropCommon as (as ++ bs) = ([], bs) := by
  induction as with
  | nil =>
    cases bs with
    | nil => rfl
    | cons b bs => rfl
  | cons a as ih =>
    rw [List.cons_append, dropCommon, if_pos rfl]
    exact ih

theorem relative?_join (hroot : root ≠ []) (h : ∀ c ∈ Text.splitAt '/' rel, ProperName c) :
    relative? root (join root rel) = some rel := by
  have hstart : isAbsolute (clean root) = isAbsolute (clean (join root rel)) := by
    rw [join_of_ne_nil hroot, clean_clean, isAbsolute_clean, isAbsolute_clean,
      isAbsolute_append hroot]
  have hway : dropCommon (components root) (components (join root rel)) =
      ([], Text.splitAt '/' rel) := by
    rw [join_of_ne_nil hroot, components_clean, components_below hroot h, dropCommon_append]
  obtain ⟨c, cs, hcs⟩ := Text.exists_splitAt_cons '/' rel
  -- nothing of the directory is left, and the path has at least one component
  have hjoined : Text.joinWith '/' (c :: cs) = rel := hcs ▸ Text.joinWith_splitAt rel
  rw [hcs] at hway
  simp only [relative?, hstart, bne_self_eq_false, Bool.false_eq_true, ↓reduceIte, hway,
    List.head?_nil, reduceCtorEq, List.map_nil, List.nil_append, hjoined]

end Path

/-! ### Files of a scan -/

namespace Scan

variable {t : FileTree} {cwd : Location} {root rel : Text}

theorem proper_of_mem_walkRoot (hnames : t.ProperNames) (h : rel ∈ (walkRoot t cwd root).1) :
    root ≠ [] ∧ ∀ c ∈ Text.splitAt '/' rel, Path.ProperName c := by
  constructor
  · intro hroot
    rw [walkRoot, if_pos (by simp [hroot])] at h
    cases h
  · intro c hc
    obtain ⟨names, -, hsplit, hproper⟩ := (walkRoot_files hnames cwd root).2 rel h
    rw [hsplit, List.nil_append] at hc
    exact hproper c hc

end Scan

/-! ### Lines of a summary -/

namespace Report

variable {t : FileTree} {cwd : Location} {root rel : Text}

theorem shownName_join (hnames : t.ProperNames) (h : rel ∈ (Scan.walkRoot t cwd root).1) :
    shownName root (Path.join root rel) = rel := by
  obtain ⟨hroot, hproper⟩ := Scan.proper_of_mem_walkRoot hnames h
  rw [shownName, Path.relative?_join hroot hproper]
  rfl

/-- The line of a result with a name in the place of its path. -/
def lineNamed (o : Terminal) (dryRun : Bool) (name : Text) (r : Result) : Text :=
  let (sign, shade, called) := outcomeSign dryRun r.outcome
  "    ".toList ++ o.paint [shade] sign ++ ' ' :: Text.padRight nameWidth name ++
    ' ' :: Text.padRight outcomeWidth called.toList ++ ' ' :: detail o r ++ ['\n']

theorem resultLine_eq (o : Terminal) (dir : Text) (dryRun : Bool) (r : Result) :
    resultLine o dir dryRun r = lineNamed o dryRun (shownName dir r.path) r := rfl

theorem flatMap_resultLine (o : Terminal) (dir : Text) (dryRun : Bool) (results : List Result) :
    results.flatMap (resultLine o dir dryRun) =
      (List.zipWith (lineNamed o dryRun) (results.map fun r => shownName dir r.path)
        results).flatten := by
  induction results with
  | nil => rfl
  | cons r results ih =>
    rw [List.flatMap_cons, List.map_cons, List.zipWith_cons_cons, List.flatten_cons, ih,
      resultLine_eq]

theorem summary_console (o : Terminal) {s : Summary} (h : s.skipped = true → s.results = []) :
    (summary o s).console = (summary o { s with results := [] }).console ++
      (List.zipWith (lineNamed o s.dryRun)
        (s.results.map fun r => shownName s.directory r.path) s.results).flatten := by
  rw [← flatMap_resultLine o s.directory]
  unfold summary
  cases hskipped : s.skipped with
  | true => simp only [h hskipped, ↓reduceIte, List.flatMap_nil, List.append_nil]
  | false =>
    simp only [Bool.false_eq_true, ↓reduceIte, List.flatMap_nil, List.append_assoc,
      List.cons_append, List.nil_append]

end Report

/-! ### Summaries of a conversion -/

namespace Conversion

variable {c : Converter} {faults : Faults} {t : FileTree} {cwd : Location} {dir : Text}
  {s : Summary}

/-- The results of a summary are about files of the scan, in its order. -/
structure Follows (c : Converter) (t : FileTree) (cwd : Location) (dir : Text) (s : Summary) :
    Prop where
  directory : s.directory = dir
  skipped : s.skipped = true → s.results = []
  paths : (s.results.map (·.path)).Sublist
    (((Scan.walkRoot t cwd dir).1.filter fun rel => Scan.Kept c.exclude rel).map (Path.join dir))

theorem run_follows {cancel : Cancellation} (h : (run c cancel t cwd dir).summary = some s) :
    Follows c t cwd dir s := by
  unfold run at h
  split at h
  · cases h
  split at h
  · cases h
  · cases h
    exact ⟨rfl, fun _ => rfl, List.nil_sublist _⟩
  · split at h
    · cases h
    · rename_i files scanned hscan
      cases h
      refine ⟨rfl, nofun, ?_⟩
      rw [← Scan.pythonFiles_selected hscan, List.map_map]
      exact (convertFiles_paths c (Package.name cwd dir) cancel 0 t files).sublist

theorem resultsOf_paths_sublist {jobs : List Job}
    (hnamed : ∀ job ∈ jobs, ∀ r, job.phase = .finished r → r.path = job.path) :
    ((resultsOf jobs).map (·.path)).Sublist (jobs.map (·.path)) := by
  induction jobs with
  | nil => exact List.Sublist.refl _
  | cons job jobs ih =>
    obtain ⟨hjob, hjobs⟩ := List.forall_mem_cons.mp hnamed
    rw [List.map_cons]
    rcases resultsOf_cons job jobs with ⟨r, hr, hcons⟩ | ⟨-, hcons⟩
    · rw [hcons, List.map_cons, hjob r hr]
      exact (ih hjobs).cons_cons _
    · rw [hcons]
      exact (ih hjobs).cons _

theorem Called.follows {r : Run} (h : Called c faults cwd t dir true r)
    (hs : r.summary = some s) : Follows c t cwd dir s := by
  cases h with
  | sequential cancel _ => exact run_follows hs
  | workers hmoves hreturned _ events =>
    cases Call.moves_outcome hmoves hreturned with
    | stopped e _ hstop =>
      rw [(hstop events).summary] at hs
      split at hs
      · cases hs
        exact ⟨rfl, fun _ => rfl, List.nil_sublist _⟩
      · cases hs
    | lost _ => cases hs
    | worked hout hsteps =>
      cases hs
      obtain ⟨_, hscan⟩ := (reaches_of_outset hout).scanned
      have hread := State.steps_read hsteps
      refine ⟨rfl, nofun, ?_⟩
      rw [← Scan.pythonFiles_selected hscan, ← hread.paths]
      exact resultsOf_paths_sublist hread.named

/-- A summary is shown with names: they are relative paths that the scan met and that no pattern
excludes, one for each result. -/
structure Shown (exclude : List Text) (t : FileTree) (cwd : Location) (dir : Text) (s : Summary)
    (names : List Text) : Prop where
  scanned : names.Sublist (Scan.walkRoot t cwd dir).1
  kept : ∀ name ∈ names, Scan.choose name exclude = .kept
  paths : s.results.map (·.path) = names.map (Path.join dir)
  ways : s.results.map (fun r => Path.relative? s.directory r.path) = names.map some
  printed : ∀ o : Terminal, (Report.summary o s).console =
    (Report.summary o { s with results := [] }).console ++
      (List.zipWith (Report.lineNamed o s.dryRun) names s.results).flatten
  apart : names.Nodup ∧ (s.results.map (·.path)).Nodup

theorem map_path_join {α : Type} {results : List Result} {names : List Text}
    (h : results.map (·.path) = names.map (Path.join dir)) (f : Text → α) :
    results.map (fun r => f r.path) = names.map fun name => f (Path.join dir name) := by
  have hmap := congrArg (List.map f) h
  rwa [List.map_map, List.map_map] at hmap

theorem Follows.shown (hnames : t.ProperNames) (h : Follows c t cwd dir s) :
    ∃ names, Shown c.exclude t cwd dir s names := by
  obtain ⟨names, hsub, hpaths⟩ := List.sublist_map_iff.mp h.paths
  have hscanned : names.Sublist (Scan.walkRoot t cwd dir).1 := hsub.trans List.filter_sublist
  have hways : ∀ name ∈ names, Path.relative? dir (Path.join dir name) = some name := by
    intro name hname
    obtain ⟨hdir, hproper⟩ := Scan.proper_of_mem_walkRoot hnames (hscanned.subset hname)
    exact Path.relative?_join hdir hproper
  have hshown : s.results.map (fun r => Report.shownName s.directory r.path) = names := by
    rw [h.directory, map_path_join hpaths]
    refine (List.map_congr_left fun name hname => ?_).trans (List.map_id names)
    exact Report.shownName_join hnames (hscanned.subset hname)
  refine ⟨names, hscanned, fun name hname => ?_, hpaths, ?_, fun o => ?_, ?_, ?_⟩
  · have hkept := (List.mem_filter.mp (hsub.subset hname)).2
    exact Scan.choose_eq_kept.mpr (of_decide_eq_true hkept)
  · rw [h.directory, map_path_join hpaths]
    exact List.map_congr_left hways
  · rw [Report.summary_console o h.skipped, hshown]
  · exact (Scan.walkRoot_files hnames cwd dir).1.sublist hscanned
  · rw [hpaths]
    exact (Scan.nodup_map_join hnames cwd dir).sublist (hscanned.map _)

/-- The way from a directory, however it is spelled, to a relative path that was joined to it is
the relative path. No two files of a scan have one path or are shown under one name, and every
summary of a call shows each result under the relative path that was held against the patterns. -/
theorem shown_names (t : FileTree) (hnames : t.ProperNames) (cwd : Location) :
    (∀ root rel : Text, root ≠ [] →
      (∀ c ∈ Text.splitAt '/' rel, c ≠ [] ∧ c ≠ Path.here ∧ c ≠ Path.above) →
      Path.relative? root (Path.join root rel) = some rel) ∧
    (∀ root : Text, ((Scan.walkRoot t cwd root).1.map (Path.join root)).Nodup ∧
      ((Scan.walkRoot t cwd root).1.map fun rel =>
        Report.shownName root (Path.join root rel)).Nodup) ∧
    ∀ (c : Converter) (faults : Faults) (dir : Text) (r : Run) (s : Summary),
      Called c faults cwd t dir true r → r.summary = some s →
        ∃ names, Shown c.exclude t cwd dir s names := by
  refine ⟨?_, ?_, ?_⟩
  · intro root rel hroot hcomponents
    refine Path.relative?_join hroot fun c hc => ?_
    obtain ⟨hnil, hhere, habove⟩ := hcomponents c hc
    exact ⟨hnil, Text.not_mem_of_mem_splitAt hc, hhere, habove⟩
  · intro root
    refine ⟨Scan.nodup_map_join hnames cwd root, ?_⟩
    rw [List.map_congr_left fun rel hrel => Report.shownName_join hnames hrel, List.map_id']
    exact (Scan.walkRoot_files hnames cwd root).1
  · intro c faults dir r s hcalled hs
    exact (hcalled.follows hs).shown hnames

def deepPackage : FileTree where
  entries :=
    [([['p']], .directory),
      ([['p'], Package.marker], .file [] 0o644),
      ([['p'], ['q']], .directory),
      ([['p'], ['q'], "a.py".toList], .file (Utf8.encode "from .b import c\n".toList) 0o644),
      ([['p'], ['q'], "b.py".toList], .file [] 0o644)]
  nodup := by decide

/-- The directory is spelled with `..` and more slashes than it needs, and one file is left out. -/
theorem shown_names_deepPackage :
    Path.relative? "..//x/../".toList (Path.join "..//x/../".toList "q/a.py".toList) =
        some "q/a.py".toList ∧
      ∃ s names, (run ⟨.plain [], 1, ["**/b.py".toList], false⟩ .never deepPackage []
          "./p/..//p/".toList).summary = some s ∧
        Shown ["**/b.py".toList] deepPackage [] "./p/..//p/".toList s names ∧
        s.results.map (·.path) = ["p/__init__.py".toList, "p/q/a.py".toList] := by
  have hshown := shown_names deepPackage (by decide) []
  have hsome : ((run ⟨.plain [], 1, ["**/b.py".toList], false⟩ .never deepPackage []
      "./p/..//p/".toList).summary.map fun s => s.results.map (·.path)) =
        some ["p/__init__.py".toList, "p/q/a.py".toList] := by decide +kernel
  obtain ⟨s, hs, hpaths⟩ := Option.map_eq_some_iff.mp hsome
  obtain ⟨names, hnames⟩ := hshown.2.2 ⟨.plain [], 1, ["**/b.py".toList], false⟩
    pairFaults "./p/..//p/".toList _ s (.sequential .never (.inl rfl)) hs
  exact ⟨hshown.1 _ _ (by decide) (by decide), s, names, hs, hnames, hpaths⟩

end Conversion

end AbsoluteImports
