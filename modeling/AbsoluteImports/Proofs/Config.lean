import AbsoluteImports.Config.Load
import AbsoluteImports.Conversion
import AbsoluteImports.Proofs.Path.Cleaning
import AbsoluteImports.Proofs.Scan.Exclusion

/-!
# Configurations that were checked

A check either refuses settings or completes them. Completed settings pass again and stay as they
are, and a conversion can be set up with them. The directories are meant from the file of the
settings, wherever the program is run.
-/

namespace AbsoluteImports.Config

variable {c found : Config}

/-! ### What a check accepts -/

/-- Settings that a check accepts. -/
structure Accepted (c : Config) : Prop where
  workers : 0 ≤ c.workers
  exclude : ∀ p ∈ c.exclude, Glob.isValid p = true
  directories : ∀ d ∈ c.directories, d ≠ []

/-- The settings with what a check fills in. -/
def completed (c : Config) : Config :=
  { c with
    workers := max 1 c.workers
    directories := if c.directories = [] then [Path.here] else c.directories.map Path.clean }

/-- The directories are all cleaned, unless one of them is empty. -/
theorem cleanFrom_eq (first : Nat) (ds : List Text) :
    ((cleanFrom first ds).2 = none ↔ ∀ d ∈ ds, d ≠ []) ∧
      ((cleanFrom first ds).2 = none → (cleanFrom first ds).1 = ds.map Path.clean) := by
  induction ds generalizing first with
  | nil => simp [cleanFrom]
  | cons d ds ih =>
    obtain ⟨hnone, hclean⟩ := ih (first + 1)
    rw [List.forall_mem_cons]
    by_cases hd : d = []
    · subst hd
      simp [cleanFrom]
    · have hemp : d.isEmpty = false := by simpa using hd
      have hstep : cleanFrom first (d :: ds) =
          (Path.clean d :: (cleanFrom (first + 1) ds).1, (cleanFrom (first + 1) ds).2) := by
        rw [cleanFrom, hemp, if_neg Bool.false_ne_true]
      rw [hstep]
      refine ⟨hnone.trans (and_iff_right hd).symm, fun h => ?_⟩
      exact congrArg (Path.clean d :: ·) (hclean h)

/-- The directories that are cleaned; without any it is the directory of the settings. -/
def named (c : Config) : List Text := if c.directories.isEmpty then [Path.here] else c.directories

theorem forall_named_iff (c : Config) : (∀ d ∈ named c, d ≠ []) ↔ ∀ d ∈ c.directories, d ≠ [] := by
  rw [named]
  cases c.directories with
  | nil => simp [Path.here]
  | cons d ds => rfl

theorem completed_eq (c : Config) :
    completed c = { c with workers := max 1 c.workers, directories := (named c).map Path.clean } := by
  rw [completed, named]
  cases c.directories with
  | nil => rfl
  | cons d ds => rfl

theorem counted_eq (h : 0 ≤ c.workers) :
    (if c.workers = 0 then { c with workers := 1 } else c) =
      { c with workers := max 1 c.workers } := by
  by_cases hzero : c.workers = 0
  · rw [if_pos hzero, hzero]
    rfl
  · have hmax : max 1 c.workers = c.workers := by omega
    rw [if_neg hzero, hmax]

theorem validate_of_exclude (hworkers : 0 ≤ c.workers)
    (hexclude : Glob.validate c.exclude = .ok ()) :
    (∀ i, (cleanFrom 0 (named c)).2 = some i → (validate c).1 = .error (.emptyDirectory i)) ∧
      ((cleanFrom 0 (named c)).2 = none → validate c = (.ok (),
        { c with workers := max 1 c.workers, directories := (cleanFrom 0 (named c)).1 })) := by
  have hnot : ¬ c.workers < 0 := by omega
  constructor
  · intro i hi
    simp only [named] at hi
    simp only [validate, if_neg hnot, counted_eq hworkers, hexclude, hi]
  · intro hnone
    simp only [named] at hnone ⊢
    simp only [validate, if_neg hnot, counted_eq hworkers, hexclude, hnone]

theorem validate_spec (c : Config) :
    ((validate c).1 = .ok () ↔ Accepted c) ∧
      (Accepted c → validate c = (.ok (), completed c)) := by
  by_cases hworkers : c.workers < 0
  · have hnot : ¬ Accepted c := by
      intro h
      have := h.workers
      omega
    refine ⟨⟨fun h => ?_, fun h => absurd h hnot⟩, fun h => absurd h hnot⟩
    rw [validate, if_pos hworkers] at h
    cases h
  have hcount : 0 ≤ c.workers := by omega
  cases hexclude : Glob.validate c.exclude with
  | error e =>
    have hnot : ¬ Accepted c := by
      intro h
      rw [Scan.validate_eq_ok.mpr h.exclude] at hexclude
      cases hexclude
    refine ⟨⟨fun h => ?_, fun h => absurd h hnot⟩, fun h => absurd h hnot⟩
    rw [validate, if_neg hworkers, hexclude] at h
    cases h
  | ok _ =>
    obtain ⟨hrefused, hpassed⟩ := validate_of_exclude hcount hexclude
    obtain ⟨hnone, hclean⟩ := cleanFrom_eq 0 (named c)
    have haccepted : Accepted c ↔ (cleanFrom 0 (named c)).2 = none := by
      rw [hnone, forall_named_iff]
      exact ⟨Accepted.directories, fun h => ⟨hcount, Scan.validate_eq_ok.mp hexclude, h⟩⟩
    rw [haccepted]
    cases hfound : (cleanFrom 0 (named c)).2 with
    | some i =>
      rw [hrefused i hfound]
      exact ⟨⟨nofun, nofun⟩, nofun⟩
    | none =>
      rw [hpassed hfound, hclean hfound, completed_eq]
      exact ⟨⟨fun _ => rfl, fun _ => rfl⟩, fun _ => rfl⟩

/-! ### Settings that passed -/

/-- Settings that nothing is left to be done about. -/
structure Ready (c : Config) : Prop where
  workers : 1 ≤ c.workers
  exclude : ∀ p ∈ c.exclude, Glob.isValid p = true
  nonempty : c.directories ≠ []
  directories : ∀ d ∈ c.directories, d ≠ [] ∧ Path.IsClean d

theorem Accepted.ready (h : Accepted c) : Ready (completed c) where
  workers := Int.le_max_left 1 c.workers
  exclude := h.exclude
  nonempty := by
    show (if c.directories = [] then [Path.here] else c.directories.map Path.clean) ≠ []
    split
    · simp
    · rename_i hne
      simpa using hne
  directories := by
    show ∀ d ∈ if c.directories = [] then [Path.here] else c.directories.map Path.clean,
      d ≠ [] ∧ Path.IsClean d
    split
    · have hhere : Path.here = Path.clean Path.here := by decide
      rw [List.forall_mem_singleton, hhere]
      exact ⟨Path.clean_ne_nil _, Path.isClean_clean _⟩
    · rw [List.forall_mem_map]
      exact fun d _ => ⟨Path.clean_ne_nil d, Path.isClean_clean d⟩

theorem Ready.accepted (h : Ready c) : Accepted c :=
  ⟨by have := h.workers; omega, h.exclude, fun d hd => (h.directories d hd).1⟩

theorem Ready.completed_eq (h : Ready c) : completed c = c := by
  have hworkers : max 1 c.workers = c.workers := Int.max_eq_right h.workers
  have hdirectories : c.directories.map Path.clean = c.directories :=
    calc c.directories.map Path.clean
        = c.directories.map id := List.map_congr_left fun d hd => (h.directories d hd).2.clean_eq
      _ = c.directories := List.map_id _
  rw [completed, if_neg h.nonempty, hworkers, hdirectories]

theorem Ready.ofOptions (h : Ready c) (files : FileAccess) (dryRun : Bool) :
    Converter.ofOptions ⟨some files, c.workers, c.exclude, dryRun⟩ =
      .ok ⟨files, c.workers.toNat, c.exclude, dryRun⟩ := by
  have hworkers := h.workers
  have hnot : ¬ c.workers < 0 := by omega
  have hmax : max 1 c.workers.toNat = c.workers.toNat := by omega
  rw [Converter.ofOptions]
  simp only [if_neg hnot, Scan.validate_eq_ok.mpr h.exclude, hmax]

theorem exists_of_load {t : FileTree} {cwd : Location} {env : Environment} {path : Text}
    (h : (load t cwd env path).1 = .ok found) :
    ∃ c, Accepted c ∧ found = completed c ∧ c.location = path := by
  unfold load at h
  cases hread : t.readFile cwd path with
  | error f =>
    rw [hread] at h
    cases h
  | ok content =>
    simp only [hread] at h
    cases hcontent : ofContent env (Text.toLower (Path.extension path)) content with
    | error e =>
      rw [hcontent] at h
      cases h
    | ok c =>
      simp only [hcontent] at h
      obtain ⟨hok, hcompleted⟩ := validate_spec { c with location := path }
      cases hvalidate : (validate { c with location := path }).1 with
      | error e =>
        have hpair : validate { c with location := path } =
            (.error e, (validate { c with location := path }).2) := by rw [← hvalidate]
        rw [hpair] at h
        cases h
      | ok _ =>
        have haccepted := hok.mp hvalidate
        rw [hcompleted haccepted] at h
        exact ⟨_, haccepted, (Except.ok.inj h).symm, rfl⟩

/-- A check accepts settings exactly when the number of workers is not negative, every pattern is
well formed and no directory is empty. It completes them, and what it made passes again and stays.
So settings that are read from a file, in whatever form, can be used for a conversion. -/
theorem validate_complete :
    (∀ c, ((validate c).1 = .ok () ↔ 0 ≤ c.workers ∧ (∀ p ∈ c.exclude, Glob.isValid p = true) ∧
        ∀ d ∈ c.directories, d ≠ []) ∧
      ((validate c).1 = .ok () →
        (validate c).2 = { c with
          workers := max 1 c.workers
          directories := if c.directories = [] then [Path.here]
            else c.directories.map Path.clean } ∧
        validate (validate c).2 = (.ok (), (validate c).2))) ∧
      ∀ t cwd env path found, (load t cwd env path).1 = .ok found →
        1 ≤ found.workers ∧ found.directories ≠ [] ∧
        (∀ d ∈ found.directories, d ≠ [] ∧ Path.clean d = d ∧ Path.IsClean d) ∧
        (∀ p ∈ found.exclude, Glob.isValid p = true) ∧
        ∀ files dryRun, Converter.ofOptions ⟨some files, found.workers, found.exclude, dryRun⟩ =
          .ok ⟨files, found.workers.toNat, found.exclude, dryRun⟩ := by
  refine ⟨fun c => ⟨?_, fun h => ?_⟩, fun t cwd env path found h => ?_⟩
  · rw [(validate_spec c).1]
    constructor
    · exact fun h => ⟨h.workers, h.exclude, h.directories⟩
    · exact fun ⟨hworkers, hexclude, hdirectories⟩ => ⟨hworkers, hexclude, hdirectories⟩
  · have haccepted := (validate_spec c).1.mp h
    have hready := haccepted.ready
    have hagain := (validate_spec (completed c)).2 hready.accepted
    rw [hready.completed_eq] at hagain
    rw [(validate_spec c).2 haccepted]
    exact ⟨rfl, hagain⟩
  · obtain ⟨c, haccepted, rfl, -⟩ := exists_of_load h
    have hready := haccepted.ready
    refine ⟨hready.workers, hready.nonempty, fun d hd => ?_, hready.exclude, hready.ofOptions⟩
    obtain ⟨hne, hclean⟩ := hready.directories d hd
    exact ⟨hne, hclean.clean_eq, hclean⟩

def settingsTree : FileTree where
  entries :=
    [(["p.json".toList], .file (Utf8.encode
        "\x7b\"directories\": [\"src//app/../lib/\"], \"exclude\": [\"**/t_*.py\"]\x7d".toList) 0o644),
      (["p.yaml".toList], .file (Utf8.encode
        "directories:\n  - src//app/../lib/\nexclude: ['**/t_*.py']\n".toList) 0o644),
      (["p.hcl".toList], .file (Utf8.encode
        "directories = [\"src//app/../lib/\"]\nexclude = [\"**/t_*.py\"]\n".toList) 0o644)]
  nodup := by decide

/-- The settings that the files hold, with directories and a number of workers to be chosen. -/
def settingsWith (directories : List Text) (workers : Int) (path : Text) : Config :=
  ⟨directories, ["**/t_*.py".toList], workers, false, path⟩

theorem load_settingsTree :
    ∀ path ∈ ["p.json".toList, "p.yaml".toList, "p.hcl".toList],
      (load settingsTree [] [] path).1 = .ok (settingsWith ["src/lib".toList] 1 path) := by
  decide +kernel

/-- The settings pass and stay, and a conversion can be set up with what each file gives. -/
theorem validate_complete_settings :
    validate (settingsWith ["src//app/../lib/".toList] 0 []) =
        (.ok (), settingsWith ["src/lib".toList] 1 []) ∧
      validate (settingsWith ["src/lib".toList] 1 []) =
        (.ok (), settingsWith ["src/lib".toList] 1 []) ∧
      ∀ path ∈ ["p.json".toList, "p.yaml".toList, "p.hcl".toList],
        (load settingsTree [] [] path).1 = .ok (settingsWith ["src/lib".toList] 1 path) ∧
        ∀ files, Converter.ofOptions ⟨some files, 1, ["**/t_*.py".toList], false⟩ =
          .ok ⟨files, 1, ["**/t_*.py".toList], false⟩ := by
  obtain ⟨hiff, hstays⟩ := validate_complete.1 (settingsWith ["src//app/../lib/".toList] 0 [])
  have hok := hiff.mpr (by decide +kernel)
  have hmade : validate (settingsWith ["src//app/../lib/".toList] 0 []) =
      (.ok (), settingsWith ["src/lib".toList] 1 []) := by decide +kernel
  have hagain := (hstays hok).2
  rw [hmade] at hagain
  refine ⟨hmade, hagain, fun path hpath => ?_⟩
  have hload := load_settingsTree path hpath
  refine ⟨hload, fun files => ?_⟩
  exact (validate_complete.2 settingsTree [] [] path _ hload).2.2.2.2 files false

/-! ### Directories below the file of the settings -/

/-- The directories are meant from the directory of the file of the settings: made absolute against
any working directory, they are what they are against that directory. -/
theorem resolvedDirectories_meant {w : Text} (hw : Path.isAbsolute w = true)
    (hlocation : c.location ≠ []) :
    (resolvedDirectories c).length = c.directories.length ∧
      ∀ (i : Nat) d, c.directories[i]? = some d → ∃ r, (resolvedDirectories c)[i]? = some r ∧
        (Path.isAbsolute d = true → r = d) ∧
        Path.absolute w r = Path.absolute (Path.absolute w (Path.parent c.location)) d := by
  have hemp : c.location.isEmpty = false := by simpa using hlocation
  have hmap : resolvedDirectories c = c.directories.map fun d =>
      if Path.isAbsolute d then d else Path.join (Path.parent c.location) d := by
    rw [resolvedDirectories, hemp, if_neg Bool.false_ne_true]
  rw [hmap]
  refine ⟨List.length_map _, fun i d hd => ?_⟩
  rw [List.getElem?_map, hd]
  refine ⟨_, rfl, fun habs => if_pos habs, ?_⟩
  show Path.absolute w (if Path.isAbsolute d then d else Path.join (Path.parent c.location) d) = _
  cases habs : Path.isAbsolute d with
  | true => rw [if_pos rfl, Path.absolute, Path.absolute, habs, if_pos rfl, if_pos rfl]
  | false =>
    rw [if_neg Bool.false_ne_true]
    exact Path.absolute_join hw (Path.clean_ne_nil _) habs

/-- Settings in a directory of their own, with a path that leads out of it and one from the root. -/
def settingsApart : Config :=
  ⟨["../../src".toList, "/opt/lib".toList], [], 1, false, "./conf//p.json".toList⟩

theorem resolvedDirectories_meant_apart :
    resolvedDirectories settingsApart = ["../src".toList, "/opt/lib".toList] ∧
      Path.absolute "/home/me".toList "../src".toList =
        Path.absolute "/home/me/conf".toList "../../src".toList := by
  have hresolved :
      resolvedDirectories settingsApart = ["../src".toList, "/opt/lib".toList] := by decide +kernel
  have hw : Path.isAbsolute "/home/me".toList = true := by decide
  have hlocation : settingsApart.location ≠ [] := by decide
  obtain ⟨r, hr, -, habs⟩ := (resolvedDirectories_meant hw hlocation).2 0 "../../src".toList rfl
  rw [hresolved] at hr
  have hbase : Path.absolute "/home/me".toList (Path.parent settingsApart.location) =
      "/home/me/conf".toList := by decide +kernel
  rw [hbase, ← Option.some.inj hr] at habs
  exact ⟨hresolved, habs⟩

end AbsoluteImports.Config
