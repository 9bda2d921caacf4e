import AbsoluteImports.Proofs.Conversion.Order

/-!
# The order of the workers does not matter

Whatever order the steps of a call come in, a call that was not cancelled ends with the results
and the tree of the run that converts one file after the other and draws the same numbers for its
temporary files (`steps_eq_run`). A call that was cancelled ends with some of these results, and its
tree is what these results say (`steps_cancelled`). A run that draws other numbers gives the same
results, with other names of temporary files in them, as long as there is as much room for one
number as for the other.
-/

namespace AbsoluteImports

/-! ### Results without the names of temporary files -/

/-- A result with the path of a temporary file left out of its error. -/
def Result.unnamed (r : Result) : Result := { r with error := r.error.map (·.unnamed) }

def Summary.unnamed (s : Summary) : Summary := { s with results := s.results.map (·.unnamed) }

theorem Result.outcome_of_unnamed {r r' : Result} (h : r.unnamed = r'.unnamed) :
    r.outcome = r'.outcome := by
  have houtcome : r.unnamed.outcome = r'.unnamed.outcome := by rw [h]
  exact houtcome

namespace Conversion

/-! ### Other numbers for the temporary files -/

section Redrawn

variable {c c' : Converter} {faults : Faults} {cwd : Location} {package path : Text}
  {t : FileTree}

/-- The result that a file has alone. -/
def alone (c : Converter) (package : Text) (t : FileTree) (path : Text) : Result :=
  (convertFile c package t path).result

theorem eq_of_unnamed {w w' : Except SourceFile.Error Unit}
    (h : w'.mapError (·.unnamed) = w.mapError (·.unnamed)) :
    w = .ok () ∧ w' = .ok () ∨
      ∃ e e', w = .error e ∧ w' = .error e' ∧ e'.unnamed = e.unnamed := by
  cases w with
  | ok _ =>
    cases w' with
    | ok _ => exact .inl ⟨rfl, rfl⟩
    | error e' => cases h
  | error e =>
    cases w' with
    | ok _ => cases h
    | error e' => exact .inr ⟨e, e', rfl, rfl, Except.error.inj h⟩

/-- Stores that read a file alike and write it alike, up to the names of temporary files, give it
the same result up to these names. -/
theorem Handles.unnamed_eq {r : Result} {wrote : Bool} {left : FileTree}
    (h : Handles c package t path r wrote left)
    (hread : c'.files.read t path = c.files.read t path) (hdry : c'.dryRun = c.dryRun)
    (hwrite : ∀ d, c.files.read t path = .ok d → ∀ d',
      (c'.files.write t path d').1.mapError (·.unnamed) =
        (c.files.write t path d').1.mapError (·.unnamed)) :
    (alone c' package t path).unnamed = r.unnamed := by
  have hpair : ∀ {d} {w : Except SourceFile.Error Unit}, (c'.files.write t path d).1 = w →
      c'.files.write t path d = (w, (c'.files.write t path d).2) := fun hw => Prod.ext hw rfl
  cases h with
  | unread e h => rw [alone, (Handles.unread e (hread.trans h)).eq.1]
  | still d h hnone => rw [alone, (Handles.still d (hread.trans h) hnone).eq.1]
  | reported d h hsome hdry' =>
    rw [alone, (Handles.reported d (hread.trans h) hsome (hdry.trans hdry')).eq.1]
  | written d left h hsome hdry' hw =>
    have hsame := hwrite d h (convertedDocument package d)
    rw [hw] at hsame
    rcases eq_of_unnamed hsame with ⟨-, hw'⟩ | ⟨e, e', he, -, -⟩
    · rw [alone, (Handles.written d _ (hread.trans h) hsome (hdry.trans hdry') (hpair hw')).eq.1]
    · cases he
  | refused d e left h hsome hdry' hw =>
    have hsame := hwrite d h (convertedDocument package d)
    rw [hw] at hsame
    rcases eq_of_unnamed hsame with ⟨hok, -⟩ | ⟨e₀, e', he, hw', heq⟩
    · cases hok
    · cases he
      rw [alone,
        (Handles.refused d e' _ (hread.trans h) hsome (hdry.trans hdry') (hpair hw')).eq.1]
      simp [Result.unnamed, heq]

/-- With another number a file has the same result, up to the names of temporary files, if the same
is against both names. -/
theorem alone_redrawn (ht : t.LinkFree) (hp : Scan.Present t cwd path)
    (hfiles : c.files = .faulty faults cwd) (package : Text) {tags : Text → Nat}
    (hrefusal : t.refusal cwd path (tags path) = t.refusal cwd path (faults.tag path)) :
    (alone (c.redrawn faults cwd tags) package t path).unnamed =
      (alone c package t path).unnamed := by
  refine (convertFile_handles c package t path).unnamed_eq
    (Converter.read_redrawn hfiles tags t path) rfl ?_
  intro d hread d'
  obtain ⟨content, _, _, hcontent, -, -⟩ :=
    (hfiles ▸ FileAccess.plainOrFails_faulty faults cwd).read_eq_ok hread
  obtain ⟨x, mode, hx, -⟩ := FileTree.readFile_eq_ok.mp hcontent
  simp only [hfiles, Converter.redrawn, FileAccess.faulty]
  cases faults.write path with
  | some e => rfl
  | none =>
    simp only
    rw [SourceFile.write_unnamed, SourceFile.write_unnamed,
      FileTree.replaceFile_redrawn ht hp hx hrefusal]

end Redrawn

/-! ### The results of a call -/

section Results

variable {c : Converter} {faults : Faults} {cwd : Location} {package : Text} {t u : FileTree}
  {files : List Text} {s : State}

theorem resultsOf_cons (job : Job) (jobs : List Job) :
    (∃ r, job.phase = .finished r ∧ resultsOf (job :: jobs) = r :: resultsOf jobs) ∨
      (∀ r, job.phase ≠ .finished r) ∧ resultsOf (job :: jobs) = resultsOf jobs := by
  obtain ⟨path, phase⟩ := job
  cases phase with
  | finished r => exact .inl ⟨r, rfl, rfl⟩
  | _ => exact .inr ⟨by simp, rfl⟩

theorem mem_resultsOf {jobs : List Job} {r : Result} :
    r ∈ resultsOf jobs ↔ ∃ job ∈ jobs, job.phase = .finished r := by
  induction jobs with
  | nil => simp [resultsOf]
  | cons job jobs ih =>
    rcases resultsOf_cons job jobs with ⟨r', hr', hcons⟩ | ⟨hne, hcons⟩
    · rw [hcons, List.mem_cons, ih]
      constructor
      · rintro (rfl | ⟨job', hjob', hr⟩)
        · exact ⟨job, List.mem_cons_self .., hr'⟩
        · exact ⟨job', List.mem_cons_of_mem _ hjob', hr⟩
      · rintro ⟨job', hjob', hr⟩
        rcases List.mem_cons.mp hjob' with rfl | hjob'
        · rw [hr'] at hr
          cases hr
          exact .inl rfl
        · exact .inr ⟨job', hjob', hr⟩
    · rw [hcons, ih]
      constructor
      · rintro ⟨job', hjob', hr⟩
        exact ⟨job', List.mem_cons_of_mem _ hjob', hr⟩
      · rintro ⟨job', hjob', hr⟩
        rcases List.mem_cons.mp hjob' with rfl | hjob'
        · exact absurd hr (hne r)
        · exact ⟨job', hjob', hr⟩

theorem resultsOf_sublist {jobs : List Job} {f : Text → Result}
    (h : ∀ job ∈ jobs, ∀ r, job.phase = .finished r → r = f job.path) :
    (resultsOf jobs).Sublist (jobs.map fun job => f job.path) := by
  induction jobs with
  | nil => exact List.Sublist.refl _
  | cons job jobs ih =>
    have hrest := ih fun job' hjob' => h job' (List.mem_cons_of_mem _ hjob')
    rcases resultsOf_cons job jobs with ⟨r, hr, hcons⟩ | ⟨-, hcons⟩
    · rw [hcons, List.map_cons, h job (List.mem_cons_self ..) r hr]
      exact hrest.cons_cons _
    · rw [hcons, List.map_cons]
      exact hrest.cons _

theorem resultsOf_first {jobs : List Job} {f : Text → Result}
    (h : ∀ job ∈ jobs, ∀ r, job.phase = .finished r → r = f job.path)
    (hfirst : jobs.Pairwise fun job job' =>
      (∃ r, job'.phase = .finished r) → ∃ r, job.phase = .finished r) :
    resultsOf jobs <+: jobs.map fun job => f job.path := by
  induction jobs with
  | nil => exact List.prefix_refl _
  | cons job jobs ih =>
    obtain ⟨hjob, hjobs⟩ := List.pairwise_cons.mp hfirst
    have hrest := ih (fun job' hjob' => h job' (List.mem_cons_of_mem _ hjob')) hjobs
    rcases resultsOf_cons job jobs with ⟨r, hr, hcons⟩ | ⟨hne, hcons⟩
    · rw [hcons, List.map_cons, h job (List.mem_cons_self ..) r hr]
      exact List.cons_prefix_cons.mpr ⟨rfl, hrest⟩
    · -- behind a file without a result there is none
      have hnil : resultsOf jobs = [] := by
        rw [List.eq_nil_iff_forall_not_mem]
        intro r hr
        obtain ⟨job', hjob', hr'⟩ := mem_resultsOf.mp hr
        obtain ⟨r', hfinished⟩ := hjob job' hjob' ⟨r, hr'⟩
        exact hne r' hfinished
      rw [hcons, hnil]
      exact List.nil_prefix

theorem resultsOf_all {jobs : List Job} {f : Text → Result}
    (h : ∀ job ∈ jobs, ∀ r, job.phase = .finished r → r = f job.path)
    (hall : ∀ job ∈ jobs, ∃ r, job.phase = .finished r) :
    resultsOf jobs = jobs.map fun job => f job.path := by
  induction jobs with
  | nil => rfl
  | cons job jobs ih =>
    have hrest := ih (fun job' hjob' => h job' (List.mem_cons_of_mem _ hjob'))
      fun job' hjob' => hall job' (List.mem_cons_of_mem _ hjob')
    obtain ⟨r, hr⟩ := hall job (List.mem_cons_self ..)
    rcases resultsOf_cons job jobs with ⟨r', hr', hcons⟩ | ⟨hne, -⟩
    · rw [hcons, List.map_cons, h job (List.mem_cons_self ..) r' hr', hrest]
    · exact absurd hr (hne r)

theorem State.Sound.result_eq (h : s.Sound c faults cwd package t files) {job : Job} {r : Result}
    (hjob : job ∈ s.jobs) (hr : job.phase = .finished r) : r = alone c package t job.path := by
  obtain ⟨i, hi⟩ := List.getElem?_of_mem hjob
  obtain ⟨-, marks, -, -, hsound⟩ := h
  have hphase := hsound i job hi
  rw [hr] at hphase
  exact hphase.1

theorem State.Sound.results_sublist (h : s.Sound c faults cwd package t files) :
    (resultsOf s.jobs).Sublist (s.jobs.map fun job => alone c package t job.path) :=
  resultsOf_sublist fun _ hjob _ hr => h.result_eq hjob hr

theorem State.Sound.results_leading {labels : List Label} (h : s.Sound c faults cwd package t files)
    (hsteps : (State.start t files).steps c faults cwd package labels = some s)
    (hone : c.workers = 1) :
    resultsOf s.jobs <+: s.jobs.map fun job => alone c package t job.path := by
  refine resultsOf_first (fun _ hjob _ hr => h.result_eq hjob hr) ?_
  rw [List.pairwise_iff_getElem]
  intro i j hi hj hij hfinished
  obtain ⟨r, hr⟩ := hfinished
  exact (State.steps_inTurn hone hsteps).done hij (List.getElem?_eq_getElem hi)
    (List.getElem?_eq_getElem hj) (by rw [hr]; simp [Phase.rank]) (by simp [hr])

theorem State.Sound.file_eq (h : s.Sound c faults cwd package t files) {i : Nat} {job : Job}
    (hjob : s.jobs[i]? = some job) : files[i]? = some job.path := by
  rw [← h.paths, List.getElem?_map, hjob]
  rfl

/-! ### The tree that a call leaves -/

theorem Rewrites.explains {path : Text} {changes : List Change} {content : Bytes} {mode : Nat}
    {l : Location} {r : Result} {after : Option Entry} (hfiles : c.files = .faulty faults cwd)
    (h : Rewrites c package t path changes content) (hr : r.outcome = .updated)
    (hl : t.locate cwd path = .ok l) (hmode : t.replacedMode cwd path = .ok mode)
    (hafter : after = some (.file content mode)) : r.Explains package (t.get? l) after := by
  obtain ⟨-, hne, d, hread, rfl, rfl⟩ := h
  obtain ⟨old, text, encoding, hcontent, hdecode, rfl⟩ :=
    (hfiles ▸ FileAccess.plainOrFails_faulty faults cwd).read_eq_ok hread
  obtain ⟨l', m, hl', hfile⟩ := FileTree.readFile_eq_ok.mp hcontent
  rw [hl] at hl'
  cases hl'
  have hm : mode = m := Except.ok.inj (hmode.symm.trans (FileTree.replacedMode_of_locate hl hfile))
  subst hm
  have hlines : ∃ p ∈ Document.cut text, absoluteLine package p.1 ≠ p.1 := by
    by_contra hnone
    have hall : ∀ p ∈ Document.cut text, absoluteLine package p.1 = p.1 := by simpa using hnone
    exact hne ((list_ofText_eq_nil_iff package text encoding).mpr hall)
  simp only [Result.Explains, hr]
  refine ⟨old, mode, text, encoding, hfile, hdecode, ?_, hlines⟩
  rw [hafter, content_convertedDocument]

/-- A file that is not with a worker has nothing of its own in the tree, or its new content at its
own place. -/
theorem Phase.Sound.mark_of_idle {phase : Phase} {path : Text} {mark : Option (Location × Entry)}
    (h : phase.Sound c faults cwd package t path mark) (hidle : phase.running = false) :
    mark = none ∨ ∃ r l e, phase = .finished r ∧ t.locate cwd path = .ok l ∧
      mark = some (l, e) := by
  cases phase with
  | waiting => exact .inl h
  | dropped => exact .inl h
  | started => cases hidle
  | reading => cases hidle
  | writing changes content stage => cases hidle
  | finished r =>
    rcases h.2 with ⟨hmark, -⟩ | ⟨-, l, changes, content, mode, -, hl, -, hmark⟩
    · exact .inl hmark
    · exact .inr ⟨r, l, _, rfl, hl, hmark⟩

theorem Phase.Sound.mark_of_dryRun {phase : Phase} {path : Text}
    {mark : Option (Location × Entry)} (h : phase.Sound c faults cwd package t path mark)
    (hdry : c.dryRun = true) : mark = none := by
  have hreal : ∀ {changes content}, ¬Rewrites c package t path changes content := by
    intro changes content hrewrites
    have hwrites := hrewrites.dryRun
    rw [hdry] at hwrites
    cases hwrites
  cases phase with
  | waiting => exact h
  | started => exact h
  | reading => exact h
  | dropped => exact h
  | writing changes content stage => exact absurd h.1 hreal
  | finished r =>
    rcases h.2 with ⟨hmark, -⟩ | ⟨-, l, changes, content, mode, hrewrites, -⟩
    · exact hmark
    · exact absurd hrewrites hreal

theorem State.Sound.explained (ht : t.LinkFree) (hown : FileTree.OwnFiles t (Owns t cwd files))
    (hfiles : c.files = .faulty faults cwd) (hdry : c.dryRun = false)
    (h : s.Sound c faults cwd package t files) {i : Nat} {path : Text} {r : Result}
    (hi : s.jobs[i]? = some ⟨path, .finished r⟩) {l : Location}
    (hl : t.locate cwd path = .ok l) : r.Explains package (t.get? l) (s.tree.get? l) := by
  have hplain := hfiles ▸ FileAccess.plainOrFails_faulty faults cwd
  have hfile := h.file_eq hi
  obtain ⟨-, marks, hoverlay, -, hsound⟩ := h
  have hphase : (Phase.finished r).Sound c faults cwd package t path (marks i) := hsound i _ hi
  obtain ⟨halone, hmark⟩ := hphase
  rcases hmark with ⟨hmark, hnot⟩ | ⟨hupdated, l', changes, content, mode, hrewrites, hl', hmode,
      hmark⟩
  · -- nothing was put over the file, and its result says why
    have hkept : s.tree.get? l = t.get? l := hoverlay.get?_own hown ⟨path, hfile, hl⟩ fun e he => by
      rw [hmark] at he
      cases he
    have hsays := (convertFile_converts hplain package t path).explains ht hdry hl
    rw [← halone] at hsays
    simp only [Result.Explains] at hsays ⊢
    rw [hkept]
    cases ho : r.outcome with
    | updated =>
      rw [hnot ho] at hdry
      cases hdry
    | unchanged =>
      simp only [ho] at hsays
      exact ⟨rfl, hsays.2⟩
    | failed => rfl
    | unknown => simp only [ho] at hsays
  · rw [hl] at hl'
    cases hl'
    exact hrewrites.explains hfiles hupdated hl hmode (hoverlay.shown hmark)

theorem State.Sound.untouched (h : s.Sound c faults cwd package t files)
    (hidle : ∀ {i : Nat} {job : Job}, s.jobs[i]? = some job → job.phase.running = false)
    {l : Location} (hl : ∀ job ∈ s.jobs, (∃ r, job.phase = .finished r) →
      t.locate cwd job.path ≠ .ok l) : s.tree.get? l = t.get? l := by
  obtain ⟨-, marks, hoverlay, hnone, hsound⟩ := h
  refine hoverlay.rest l ?_
  intro i e he
  cases hjob : s.jobs[i]? with
  | none =>
    rw [hnone i hjob] at he
    cases he
  | some job =>
    rcases (hsound i job hjob).mark_of_idle (hidle hjob) with hmark | ⟨r, l', e', hr, hl', hmark⟩
    · rw [hmark] at he
      cases he
    · rw [hmark] at he
      cases he
      exact hl job (List.mem_of_getElem? hjob) ⟨r, hr⟩ hl'

/-- When no file is with a worker, the results account for the tree. -/
theorem State.Sound.accounts (ht : t.LinkFree) (hapart : Scan.Apart t cwd files)
    (hpresent : ∀ path ∈ files, Scan.Present t cwd path) (hfiles : c.files = .faulty faults cwd)
    (hdry : c.dryRun = false) (h : s.Sound c faults cwd package t files)
    (hidle : ∀ {i : Nat} {job : Job}, s.jobs[i]? = some job → job.phase.running = false) :
    Accounts package cwd (resultsOf s.jobs) t s.tree := by
  have hplain := hfiles ▸ FileAccess.plainOrFails_faulty faults cwd
  have hresult : ∀ {job : Job} {r : Result}, job ∈ s.jobs → job.phase = .finished r →
      r = alone c package t job.path ∧ r.path = job.path := by
    intro job r hjob hr
    have halone := h.result_eq hjob hr
    exact ⟨halone, by rw [halone, alone, (convertFile_converts hplain package t job.path).path_eq]⟩
  refine ⟨?_, ?_, ?_⟩
  · intro r hr hne
    obtain ⟨job, hjob, hphase⟩ := mem_resultsOf.mp hr
    obtain ⟨halone, hpath⟩ := hresult hjob hphase
    rw [hpath]
    rw [halone] at hne
    exact (convertFile_converts hplain package t job.path).located hne
  · intro r hr l hl
    obtain ⟨⟨path, phase⟩, hjob, rfl⟩ := mem_resultsOf.mp hr
    rw [(hresult hjob rfl).2] at hl
    obtain ⟨i, hi⟩ := List.getElem?_of_mem hjob
    exact h.explained ht (ownFiles hapart hpresent) hfiles hdry hi hl
  · intro l hl
    refine h.untouched hidle fun job hjob hfinished => ?_
    obtain ⟨r, hr⟩ := hfinished
    rw [← (hresult hjob hr).2]
    exact hl r (mem_resultsOf.mpr ⟨job, hjob, hr⟩)

theorem State.Sound.view_of_dryRun (hdry : c.dryRun = true)
    (h : s.Sound c faults cwd package t files) (l : Location) : s.tree.get? l = t.get? l := by
  obtain ⟨-, marks, hoverlay, hnone, hsound⟩ := h
  refine hoverlay.rest l ?_
  intro i e he
  have hmark : marks i = none := by
    cases hjob : s.jobs[i]? with
    | none => exact hnone i hjob
    | some job => exact (hsound i job hjob).mark_of_dryRun hdry
  rw [hmark] at he
  cases he

end Results

/-! ### Calls that are done with their files -/

section Done

variable {c c' : Converter} {faults : Faults} {cwd : Location} {package : Text} {t left : FileTree}
  {files : List Text} {results : List Result} {dir : Text} {labels : List Label} {s : State}

/-- Files have the results that they have alone, and a tree is what these results say. -/
structure Done (c : Converter) (package : Text) (cwd : Location) (t : FileTree) (files : List Text)
    (results : List Result) (left : FileTree) : Prop where
  each : results = files.map (alone c package t)
  accounts : c.dryRun = false → Accounts package cwd results t left
  dry : c.dryRun = true → ∀ l, left.get? l = t.get? l

/-- Results that agree but for the names of temporary files leave the same tree. -/
theorem Done.view_eq {results' : List Result} {left' : FileTree}
    (h : Done c package cwd t files results left) (h' : Done c' package cwd t files results' left')
    (hdry : c'.dryRun = c.dryRun) (hsame : results'.map (·.unnamed) = results.map (·.unnamed))
    (l : Location) : left.get? l = left'.get? l := by
  cases hd : c.dryRun with
  | true => rw [h.dry hd, h'.dry (hdry.trans hd)]
  | false =>
    refine (h.accounts hd).get?_eq (h'.accounts (hdry.trans hd)) (fun _ => rfl) rfl ?_ ?_
    · have hpaths := congrArg (List.map Result.path) hsame
      rw [List.map_map, List.map_map] at hpaths
      exact hpaths.symm
    · intro i r r' hr hr' _
      have hi := congrArg (·[i]?) hsame
      simp only [List.getElem?_map, hr, hr', Option.map_some, Option.some.injEq] at hi
      exact Result.outcome_of_unnamed hi

theorem Done.redrawn {results' : List Result} {left' : FileTree} {tags : Text → Nat}
    (h : Done c package cwd t files results left)
    (h' : Done (c.redrawn faults cwd tags) package cwd t files results' left') (ht : t.LinkFree)
    (hpresent : ∀ path ∈ files, Scan.Present t cwd path) (hfiles : c.files = .faulty faults cwd)
    (hrefusal : ∀ path ∈ files,
      t.refusal cwd path (tags path) = t.refusal cwd path (faults.tag path)) :
    results'.map (·.unnamed) = results.map (·.unnamed) := by
  rw [h.each, h'.each, List.map_map, List.map_map]
  exact List.map_congr_left fun path hpath =>
    alone_redrawn ht (hpresent path hpath) hfiles package (hrefusal path hpath)

theorem Reaches.done (hnames : t.ProperNames) (hlinks : t.LinkFree)
    (hfiles : c.files = .faulty faults cwd) (h : Reaches c t cwd dir files) (package : Text) :
    Done c package cwd t files ((convertFiles c package .never 0 t files).1.map (·.result))
      (convertFiles c package .never 0 t files).2 := by
  obtain ⟨events, hscan⟩ := h.scanned
  have hapart := Scan.pythonFiles_apart hnames hlinks hscan
  have hplain := hfiles ▸ FileAccess.plainOrFails_faulty faults cwd
  refine ⟨convertFiles_results hfiles package hlinks hapart, ?_, ?_⟩
  · intro hdry
    exact convertFiles_accounts hplain hdry package .never 0 hlinks hapart
  · intro hdry l
    rw [convertFiles_of_still (t := t) 0
      fun path (_ : path ∈ files) => tree_of_dryRun hdry package t path]

theorem State.done (hnames : t.ProperNames) (hlinks : t.LinkFree)
    (hfiles : c.files = .faulty faults cwd) (hreach : Reaches c t cwd dir files)
    (hsteps : (State.start t files).steps c faults cwd package labels = some s)
    (hreturned : s.loop = .returned) (hcancel : .cancel ∉ labels) :
    Done c package cwd t files (resultsOf s.jobs) s.tree := by
  obtain ⟨events, hscan⟩ := hreach.scanned
  have hapart := Scan.pythonFiles_apart hnames hlinks hscan
  have hpresent := Scan.pythonFiles_present hnames hlinks hscan
  have hsound := State.steps_sound hlinks hapart hpresent hfiles hsteps
  have hordered := State.steps_ordered hsteps
  refine ⟨?_, ?_, fun hdry => hsound.view_of_dryRun hdry⟩
  · have hall : ∀ job ∈ s.jobs, ∃ r, job.phase = .finished r := by
      intro job hjob
      obtain ⟨i, hi⟩ := List.getElem?_of_mem hjob
      exact hordered.finished hreturned (State.not_cancelled hsteps hcancel) hi
    rw [resultsOf_all (fun job hjob r hr => hsound.result_eq hjob hr) hall, ← hsound.paths,
      List.map_map]
    rfl
  · intro hdry
    exact hsound.accounts hlinks hapart hpresent hfiles hdry
      fun hjob => hordered.idle hreturned hjob

end Done

/-! ### Whole calls -/

section Calls

variable {c : Converter} {faults : Faults} {cwd : Location} {t : FileTree} {dir : Text}
  {files : List Text} {labels : List Label} {s : State}

/-- However the steps of the workers follow each other, a call over a package without links that
was not cancelled ends as the run that converts one file after the other: with its summary and its
tree. Every file has the result that it has alone. A run that draws other numbers gives this summary
up to the names of temporary files, and this tree, if for each file the same is against both names,
as it is unless one of them is too long. -/
theorem steps_eq_run (c : Converter) (faults : Faults) (t : FileTree) (cwd : Location)
    (dir : Text) (files : List Text) (labels : List Label) (s : State) (hnames : t.ProperNames)
    (hlinks : t.LinkFree) (hfiles : c.files = .faulty faults cwd)
    (hreach : Reaches c t cwd dir files)
    (hsteps : (State.start t files).steps c faults cwd (Package.name cwd dir) labels = some s)
    (hreturned : s.loop = .returned) (hcancel : .cancel ∉ labels) :
    (run c .never t cwd dir).summary = some (s.summary c (Package.name cwd dir) dir) ∧
      resultsOf s.jobs =
        files.map (fun path => (convertFile c (Package.name cwd dir) t path).result) ∧
      s.error dir = none ∧ (run c .never t cwd dir).error = none ∧
      (∀ l, s.tree.get? l = (run c .never t cwd dir).tree.get? l) ∧
      ∀ tags : Text → Nat, (∀ path ∈ files,
          t.refusal cwd path (tags path) = t.refusal cwd path (faults.tag path)) →
        ∃ summary, (run (c.redrawn faults cwd tags) .never t cwd dir).summary = some summary ∧
          (s.summary c (Package.name cwd dir) dir).unnamed = summary.unnamed ∧
          (run (c.redrawn faults cwd tags) .never t cwd dir).error = none ∧
          ∀ l, s.tree.get? l = (run (c.redrawn faults cwd tags) .never t cwd dir).tree.get? l := by
  obtain ⟨events, hscan⟩ := hreach.scanned
  have hdone := State.done hnames hlinks hfiles hreach hsteps hreturned hcancel
  have hrun := hreach.done hnames hlinks hfiles (Package.name cwd dir)
  obtain ⟨hsummary, herror, htree, -⟩ := hreach.run_eq
  refine ⟨?_, hdone.each, ?_, herror, ?_, ?_⟩
  · rw [hsummary, hrun.each, State.summary, hdone.each]
  · simp [State.error, State.not_cancelled hsteps hcancel]
  · intro l
    rw [htree]
    exact hdone.view_eq hrun rfl (by rw [hrun.each, hdone.each]) l
  · intro tags hrefusal
    have hreach' := hreach.redrawn hfiles tags
    have hrun' := hreach'.done hnames hlinks rfl (Package.name cwd dir)
    have hsame := hdone.redrawn hrun' hlinks (Scan.pythonFiles_present hnames hlinks hscan) hfiles
      hrefusal
    obtain ⟨hsummary', herror', htree', -⟩ := hreach'.run_eq
    refine ⟨_, hsummary', ?_, herror', ?_⟩
    · simp only [State.summary, Summary.unnamed, hsame]
      rfl
    · intro l
      rw [htree']
      exact hdone.view_eq hrun' rfl hsame l

def pairPackage : FileTree where
  entries :=
    [([['p']], .directory),
      ([['p'], Package.marker], .file [] 0o644),
      ([['p'], "a.py".toList], .file (Utf8.encode "from .b import c\n".toList) 0o600),
      ([['p'], "b.py".toList], .file (Utf8.encode "from .a import c\n".toList) 0o644)]
  nodup := by decide

def pairFiles : List Text := ["p/__init__.py".toList, "p/a.py".toList, "p/b.py".toList]

/-- The second of them cannot be written, and for the first a short number is drawn. -/
def pairFaults : Faults :=
  ⟨fun _ => none, fun p => if p = "p/b.py".toList then some (.reported "disk full") else none,
    fun p => if p = "p/a.py".toList then 5 else 1234567890⟩

def pairConverter : Converter := ⟨.faulty pairFaults [], 2, [], false⟩

theorem reaches_pairPackage : Reaches pairConverter pairPackage [] ['p'] pairFiles :=
  ⟨rfl, rfl, _, rfl⟩

/-- Both files are in work at once, and the write of the second fails after three bytes. -/
def pairSchedule : List Label :=
  [.look, .launch, .look, .launch, .act 0 .check, .act 1 .check, .act 1 .read, .act 0 .read,
    .look, .launch, .act 2 .check, .act 2 .read, .act 1 (.write .go), .act 2 (.write .go),
    .act 1 (.write .go), .act 2 (.write .go), .act 1 (.write .go),
    .act 2 (.write (.fail [1, 2, 3])), .act 1 (.write .go), .act 2 (.write .go),
    .act 1 (.write .go), .look, .act 1 (.write .go), .finish]

theorem steps_eq_run_pairPackage :
    ∃ s summary, (State.start pairPackage pairFiles).steps pairConverter pairFaults []
        (Package.name [] ['p']) pairSchedule = some s ∧
      (resultsOf s.jobs).map (·.outcome) = [.unchanged, .updated, .failed] ∧
      (run pairConverter .never pairPackage [] ['p']).summary =
        some (s.summary pairConverter (Package.name [] ['p']) ['p']) ∧
      (run (pairConverter.redrawn pairFaults [] fun _ => 4294967295) .never pairPackage []
        ['p']).summary = some summary ∧
      (s.summary pairConverter (Package.name [] ['p']) ['p']).unnamed = summary.unnamed ∧
      ∀ l, s.tree.get? l = (run pairConverter .never pairPackage [] ['p']).tree.get? l := by
  have hends : ((State.start pairPackage pairFiles).steps pairConverter pairFaults []
      (Package.name [] ['p']) pairSchedule).map (fun s =>
        (s.loop, (resultsOf s.jobs).map (·.outcome))) =
          some (.returned, [.unchanged, .updated, .failed]) := by decide +kernel
  obtain ⟨s, hs, hpair⟩ := Option.map_eq_some_iff.mp hends
  obtain ⟨hreturned, houtcomes⟩ := Prod.mk.inj hpair
  obtain ⟨hsummary, -, -, -, htree, hredrawn⟩ :=
    steps_eq_run pairConverter pairFaults pairPackage [] ['p'] pairFiles pairSchedule s (by decide)
      (FileTree.linkFree_of_entries (by decide)) rfl reaches_pairPackage hs hreturned (by decide)
  obtain ⟨summary, hsummary', hsame, -, -⟩ := hredrawn (fun _ => 4294967295) (by decide +kernel)
  exact ⟨s, summary, hs, houtcomes, hsummary, hsummary', hsame, htree⟩

/-- However the steps of the workers follow each other, a call over a package without links that
was cancelled has some of the results of the run that was not, in their order, and with one
worker the first of them. Its tree is what these results say, so that no temporary file is left. A
file that is looked at after the call was cancelled is neither read nor written. A run that draws
other numbers has these results up to the names of temporary files, if for each file the same is
against both names. -/
theorem steps_cancelled (c : Converter) (faults : Faults) (t : FileTree) (cwd : Location)
    (dir : Text) (files : List Text) (labels : List Label) (s : State) (hnames : t.ProperNames)
    (hlinks : t.LinkFree) (hfiles : c.files = .faulty faults cwd)
    (hreach : Reaches c t cwd dir files)
    (hsteps : (State.start t files).steps c faults cwd (Package.name cwd dir) labels = some s)
    (hreturned : s.loop = .returned) (hcancel : .cancel ∈ labels) :
    (∃ summary, (run c .never t cwd dir).summary = some summary ∧
        (resultsOf s.jobs).Sublist summary.results ∧
        (c.workers = 1 → resultsOf s.jobs <+: summary.results)) ∧
      (c.dryRun = false → Accounts (Package.name cwd dir) cwd (resultsOf s.jobs) t s.tree) ∧
      (c.dryRun = true → ∀ l, s.tree.get? l = t.get? l) ∧
      (∀ pre post i action, labels = pre ++ .act i .check :: post → .cancel ∈ pre →
        .act i action ∈ labels → action = .check) ∧
      s.error dir = some (.cancelled dir) ∧
      ∀ tags : Text → Nat, (∀ path ∈ files,
          t.refusal cwd path (tags path) = t.refusal cwd path (faults.tag path)) →
        ∃ summary, (run (c.redrawn faults cwd tags) .never t cwd dir).summary = some summary ∧
          ((resultsOf s.jobs).map (·.unnamed)).Sublist (summary.results.map (·.unnamed)) ∧
          (c.workers = 1 →
            (resultsOf s.jobs).map (·.unnamed) <+: summary.results.map (·.unnamed)) := by
  obtain ⟨events, hscan⟩ := hreach.scanned
  have hapart := Scan.pythonFiles_apart hnames hlinks hscan
  have hpresent := Scan.pythonFiles_present hnames hlinks hscan
  have hsound := State.steps_sound hlinks hapart hpresent hfiles hsteps
  have hordered := State.steps_ordered hsteps
  have hcancelled : s.cancelled = true := (State.steps_cancelled_iff hsteps).mpr (.inr hcancel)
  have hrun := hreach.done hnames hlinks hfiles (Package.name cwd dir)
  have hjobs : s.jobs.map (fun job => alone c (Package.name cwd dir) t job.path) =
      (convertFiles c (Package.name cwd dir) .never 0 t files).1.map (·.result) := by
    rw [hrun.each, ← hsound.paths, List.map_map]
    rfl
  have hsublist := hsound.results_sublist
  have hleading := hsound.results_leading hsteps
  rw [hjobs] at hsublist hleading
  refine ⟨⟨_, hreach.run_eq.1, hsublist, hleading⟩, ?_, fun hdry => hsound.view_of_dryRun hdry, ?_,
    ?_, ?_⟩
  · intro hdry
    exact hsound.accounts hlinks hapart hpresent hfiles hdry
      fun hjob => hordered.idle hreturned hjob
  · rintro pre post i action rfl hpre hmem
    exact State.steps_of_check hsteps hpre hmem
  · simp [State.error, hcancelled]
  · intro tags hrefusal
    have hreach' := hreach.redrawn hfiles tags
    have hrun' := hreach'.done hnames hlinks rfl (Package.name cwd dir)
    have hsame := hrun.redrawn hrun' hlinks hpresent hfiles hrefusal
    refine ⟨_, hreach'.run_eq.1, ?_, fun hone => ?_⟩
    · exact hsame ▸ hsublist.map _
    · exact hsame ▸ (hleading hone).map _

/-- The call is cancelled while a temporary file stands in the package; the file that waits for a
worker is handed out after that, and given up. -/
def cancelledSchedule : List Label :=
  [.look, .launch, .look, .launch, .look, .act 0 .check, .act 1 .check, .act 1 .read,
    .act 1 (.write .go), .act 1 (.write .go), .cancel, .act 0 .read, .launch, .act 2 .check,
    .act 1 (.write .go), .act 1 (.write .go), .act 1 (.write .go), .act 1 (.write .go), .look,
    .finish]

theorem steps_cancelled_pairPackage :
    ∃ s summary, (State.start pairPackage pairFiles).steps pairConverter pairFaults []
        (Package.name [] ['p']) cancelledSchedule = some s ∧
      (resultsOf s.jobs).map (·.outcome) = [.unchanged, .updated] ∧
      (run pairConverter .never pairPackage [] ['p']).summary = some summary ∧
      (resultsOf s.jobs).Sublist summary.results ∧
      Accounts (Package.name [] ['p']) [] (resultsOf s.jobs) pairPackage s.tree ∧
      s.error ['p'] = some (.cancelled ['p']) ∧
      ∃ summary', (run (pairConverter.redrawn pairFaults [] fun _ => 0) .never pairPackage []
          ['p']).summary = some summary' ∧
        ((resultsOf s.jobs).map (·.unnamed)).Sublist (summary'.results.map (·.unnamed)) := by
  have hends : ((State.start pairPackage pairFiles).steps pairConverter pairFaults []
      (Package.name [] ['p']) cancelledSchedule).map (fun s =>
        (s.loop, (resultsOf s.jobs).map (·.outcome))) =
          some (.returned, [.unchanged, .updated]) := by decide +kernel
  obtain ⟨s, hs, hpair⟩ := Option.map_eq_some_iff.mp hends
  obtain ⟨hreturned, houtcomes⟩ := Prod.mk.inj hpair
  obtain ⟨⟨summary, hsummary, hsublist, -⟩, haccounts, -, -, herror, hredrawn⟩ :=
    steps_cancelled pairConverter pairFaults pairPackage [] ['p'] pairFiles cancelledSchedule s
      (by decide) (FileTree.linkFree_of_entries (by decide)) rfl reaches_pairPackage hs hreturned
      (by decide)
  obtain ⟨summary', hsummary', hsublist', -⟩ := hredrawn (fun _ => 0) (by decide +kernel)
  exact ⟨s, summary, hs, houtcomes, hsummary, hsublist, haccounts rfl, herror, summary', hsummary',
    hsublist'⟩

end Calls

end Conversion

end AbsoluteImports
