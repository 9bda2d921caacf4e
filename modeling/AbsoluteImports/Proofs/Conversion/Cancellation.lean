import AbsoluteImports.Proofs.Conversion.Calls

/-!
# What a cancelled call gives

A call can be cancelled at every point. The workers leave a summary of the files that were read by
then; the scan leaves none, so that a call that is cancelled before the last file was found may end
without a summary. `cancelled_call` says when.
-/

namespace AbsoluteImports.Conversion

/-! ### The files that were read -/

section Reading

variable {c : Converter} {faults : Faults} {cwd : Location} {package path : Text}
  {t t' : FileTree} {s s' : State} {a : Label} {labels : List Label}

def Phase.wasRead : Phase → Bool
  | writing .. | finished _ => true
  | waiting | started | reading | dropped => false

theorem Phase.opened_wasRead (c : Converter) (package path : Text)
    (read : Except SourceFile.Error Document) :
    (Phase.opened c package path read).wasRead = true ∧
      ∀ r, Phase.opened c package path read = .finished r → r.path = path := by
  cases read with
  | error e => exact ⟨rfl, by simp [Phase.opened]⟩
  | ok d =>
    simp only [Phase.opened]
    split
    · exact ⟨rfl, by simp⟩
    split
    · exact ⟨rfl, by simp⟩
    · exact ⟨rfl, by simp⟩

theorem Phase.written_wasRead (path : Text) (changes : List Change) (content : Bytes)
    (stage : SourceFile.Stage) :
    (Phase.written path changes content stage).wasRead = true ∧
      ∀ r, Phase.written path changes content stage = .finished r → r.path = path := by
  unfold Phase.written
  split
  · exact ⟨rfl, by simp⟩
  · exact ⟨rfl, by simp⟩
  · exact ⟨rfl, by simp⟩

theorem Phase.act_wasRead {cancelled : Bool} {phase phase' : Phase} {action : Action}
    (h : phase.act c faults cwd package cancelled t path action = some (phase', t')) :
    (phase'.wasRead = true ↔ phase.wasRead = true ∨ action = .read) ∧
      ∀ r, phase' = .finished r → r.path = path := by
  cases Phase.act_eq_some h with
  | check =>
    cases cancelled with
    | true => exact ⟨by decide, by simp⟩
    | false => exact ⟨by decide, by simp⟩
  | read =>
    obtain ⟨hread, hpath⟩ := Phase.opened_wasRead c package path (c.files.read t path)
    exact ⟨⟨fun _ => .inr rfl, fun _ => hread⟩, hpath⟩
  | @write changes content stage stage' choice t' hnext =>
    obtain ⟨hread, hpath⟩ := Phase.written_wasRead path changes content stage'
    exact ⟨⟨fun _ => .inl rfl, fun _ => hread⟩, hpath⟩

/-- The files of a call keep their paths, those are read that it read, and results are about the
files that have them. -/
structure State.Read (files : List Text) (labels : List Label) (s : State) : Prop where
  paths : s.jobs.map (·.path) = files
  wasRead : ∀ (i : Nat) job, s.jobs[i]? = some job →
    (job.phase.wasRead = true ↔ .act i .read ∈ labels)
  named : ∀ job ∈ s.jobs, ∀ r, job.phase = .finished r → r.path = job.path

theorem State.start_read (t : FileTree) (files : List Text) :
    (State.start t files).Read files [] := by
  refine ⟨by simp [State.start, Function.comp_def], ?_, ?_⟩
  · intro i job hjob
    rw [State.phase_start hjob]
    simp [Phase.wasRead]
  · intro job hjob r hr
    obtain ⟨path, -, rfl⟩ := List.mem_map.mp hjob
    cases hr

theorem State.Read.keep {files : List Text} (h : s.Read files labels)
    (ha : ∀ i, a ≠ .act i .read) (tree : FileTree) (loop : Loop) (cancelled : Bool) :
    State.Read files (labels ++ [a]) ⟨tree, s.jobs, loop, cancelled⟩ := by
  refine ⟨h.paths, fun i job hjob => ?_, h.named⟩
  rw [h.wasRead i job hjob, List.mem_append, List.mem_singleton, or_iff_left (ha i).symm]

theorem State.Read.set {files : List Text} {i : Nat} {phase phase' : Phase}
    (h : s.Read files labels) (hjob : s.jobs[i]? = some ⟨path, phase⟩)
    (hread : phase'.wasRead = true ↔ phase.wasRead = true ∨ a = .act i .read)
    (hother : ∀ j, j ≠ i → a ≠ .act j .read)
    (hnamed : ∀ r, phase' = .finished r → r.path = path) (tree : FileTree) (loop : Loop)
    (cancelled : Bool) :
    State.Read files (labels ++ [a]) ⟨tree, s.jobs.set i ⟨path, phase'⟩, loop, cancelled⟩ := by
  refine ⟨?_, fun j job hj => ?_, fun job hmem r hr => ?_⟩
  · rw [map_path_set hjob, h.paths]
  · rw [getElem?_set_of_some hjob] at hj
    rw [List.mem_append, List.mem_singleton]
    split at hj
    · rename_i hji
      subst hji
      cases hj
      rw [hread, h.wasRead j _ hjob, eq_comm (a := a)]
    · rename_i hji
      rw [h.wasRead j job hj, or_iff_left (hother j hji).symm]
  · rcases List.mem_or_eq_of_mem_set hmem with hmem | rfl
    · exact h.named job hmem r hr
    · exact hnamed r hr

theorem State.Read.next {files : List Text} (h : s.Read files labels)
    (hstep : Step c faults cwd package s a s') : s'.Read files (labels ++ [a]) := by
  cases hstep with
  | stop => exact h.keep (by simp) _ _ _
  | look => exact h.keep (by simp) _ _ _
  | cancel => exact h.keep (by simp) _ _ _
  | finish => exact h.keep (by simp) _ _ _
  | launch hloop hfree hjob =>
    exact h.set hjob (by simp [Phase.wasRead]) (by simp) (by simp) _ _ _
  | @act i action path phase phase' tree hjob hact =>
    obtain ⟨hread, hnamed⟩ := Phase.act_wasRead hact
    refine h.set hjob ?_ ?_ hnamed _ _ _
    · rw [hread]
      simp
    · rintro j hj heq
      cases heq
      exact hj rfl

theorem State.steps_read_of {files : List Text} {past : List Label} (h : s.Read files past)
    (hsteps : s.steps c faults cwd package labels = some s') : s'.Read files (past ++ labels) := by
  induction labels generalizing s past with
  | nil =>
    cases hsteps
    rw [List.append_nil]
    exact h
  | cons a rest ih =>
    obtain ⟨mid, hmid, hrest⟩ := Option.bind_eq_some_iff.mp hsteps
    have hall := ih (h.next (State.step_eq_some hmid)) hrest
    rwa [List.append_assoc, List.singleton_append] at hall

theorem State.steps_read {files : List Text}
    (h : (State.start t files).steps c faults cwd package labels = some s) :
    s.Read files labels :=
  State.steps_read_of (State.start_read t files) h

theorem Phase.wasRead_iff {phase : Phase} (h : phase.running = false) :
    phase.wasRead = true ↔ ∃ r, phase = .finished r := by
  cases phase with
  | finished r => exact ⟨fun _ => ⟨r, rfl⟩, fun _ => rfl⟩
  | writing => cases h
  | waiting => exact ⟨nofun, by simp⟩
  | started => exact ⟨nofun, by simp⟩
  | reading => exact ⟨nofun, by simp⟩
  | dropped => exact ⟨nofun, by simp⟩

theorem resultsOf_paths {jobs : List Job} (read : Nat → Bool) (k : Nat)
    (hread : ∀ (i : Nat) job, jobs[i]? = some job →
      ((∃ r, job.phase = .finished r) ↔ read (k + i) = true))
    (hnamed : ∀ job ∈ jobs, ∀ r, job.phase = .finished r → r.path = job.path) :
    (resultsOf jobs).map (·.path) =
      (((jobs.map (·.path)).zipIdx k).filter fun x => read x.2).map (·.1) := by
  induction jobs generalizing k with
  | nil => rfl
  | cons job jobs ih =>
    have hfirst := hread 0 job rfl
    have hrest := ih (k + 1)
      (fun i job' hjob' => by
        have := hread (i + 1) job' hjob'
        rwa [Nat.add_comm i 1, ← Nat.add_assoc] at this)
      fun job' hjob' => hnamed job' (List.mem_cons_of_mem _ hjob')
    rw [Nat.add_zero] at hfirst
    rw [List.map_cons, List.zipIdx_cons]
    rcases resultsOf_cons job jobs with ⟨r, hr, hcons⟩ | ⟨hne, hcons⟩
    · rw [hcons, List.map_cons, hrest, hnamed job (List.mem_cons_self ..) r hr,
        List.filter_cons, if_pos (hfirst.mp ⟨r, hr⟩), List.map_cons]
    · have hnot : ¬ read k = true := fun hk => by
        obtain ⟨r, hr⟩ := hfirst.mpr hk
        exact hne r hr
      rw [hcons, hrest, List.filter_cons, if_neg hnot]

end Reading

/-! ### Cancelled calls -/

section Cancelled

variable {c : Converter} {faults : Faults} {cwd : Location} {dir : Text} {t : FileTree}
  {ms : List Move} {k : Call}

/-- What a cancelled call gives. A call that was stopped early, in the scan, has no summary; else
it has that of the files that were processed. -/
structure Interrupted (c : Converter) (t : FileTree) (cwd : Location) (dir : Text) (early : Prop)
    (done : List Text → List Text) (summary : Option Summary) (error : Option Error) : Prop where
  lost : early → summary = none ∧ error = some (.listing (.cancelled dir))
  given : ¬early → error = some (.cancelled dir) ∧ ∃ files results, Reaches c t cwd dir files ∧
    summary = some ⟨dir, Package.name cwd dir, false, c.dryRun, results⟩ ∧
    results.map (·.path) = done files

theorem Call.Traced.interrupted (h : k.Traced c faults cwd dir t ms)
    (hskipped : outset c t cwd dir ≠ .error none) (hreturned : k.returned = true)
    (hcancel : .cancel ∈ ms) (hother : ∀ e, k.error dir = some e → e.isCancelled = true) :
    Interrupted c t cwd dir (VisitedLate ms) (processed ms) (k.summary c cwd dir)
      (k.error dir) := by
  cases k with
  | entering cancelled => cases hreturned
  | scanning cancelled left kept => cases hreturned
  | skipped => exact absurd h hskipped
  | failed e =>
    rcases h with ⟨rfl, hlate⟩ | ⟨hnot, -⟩
    · exact ⟨fun _ => ⟨rfl, rfl⟩, fun htime => absurd hlate htime⟩
    · rw [hother e rfl] at hnot
      cases hnot
  | converting s =>
    obtain ⟨htime, files, labels, houtset, hsteps, hlabels⟩ := h
    have hloop : s.loop = .returned := by simpa [Call.returned] using hreturned
    have hcancelled : s.cancelled = true :=
      (State.steps_cancelled_iff hsteps).mpr (.inr ((hlabels .cancel).mpr hcancel))
    have hordered := State.steps_ordered hsteps
    have hread := State.steps_read hsteps
    refine ⟨fun hlate => absurd hlate htime,
      fun _ => ⟨?_, files, _, reaches_of_outset houtset, rfl, ?_⟩⟩
    · simp only [Call.error, State.error, hcancelled, if_true]
    · rw [processed, ← hread.paths]
      refine resultsOf_paths (fun i => .step (.act i .read) ∈ ms) 0 (fun i job hjob => ?_)
        hread.named
      rw [← Phase.wasRead_iff (hordered.idle hloop hjob), hread.wasRead i job hjob, hlabels,
        Nat.zero_add, decide_eq_true_iff]

theorem run_interrupted (hdirectory : Package.validateDirectory t cwd dir = .ok ())
    (hroot : Package.isRoot c.files t dir = .ok true) (hexclude : Glob.validate c.exclude = .ok ())
    {cancel : Cancellation} (hcancel : cancel.seen (run c cancel t cwd dir).reads.length = true)
    (hother : ∀ e, (run c cancel t cwd dir).error = some e → e.isCancelled = true) :
    Interrupted c t cwd dir (cancel.seen 0 = true ∧ (Scan.walkRoot t cwd dir).1 ≠ [])
      (fun _ => (run c cancel t cwd dir).reads) (run c cancel t cwd dir).summary
      (run c cancel t cwd dir).error := by
  have hnotice : (Scan.pythonFiles t cwd dir c.exclude (cancel.seen 0)).1 =
      .error (.cancelled dir) ↔ cancel.seen 0 = true ∧ (Scan.walkRoot t cwd dir).1 ≠ [] :=
    Scan.pythonFiles_cancelled hexclude
  unfold run at hcancel hother ⊢
  simp only [hdirectory, hroot] at hcancel hother ⊢
  obtain ⟨found, events, hscan⟩ :
      ∃ found events, Scan.pythonFiles t cwd dir c.exclude (cancel.seen 0) = (found, events) :=
    ⟨_, _, rfl⟩
  have hselect := (congrArg Prod.fst hscan).symm.trans (Scan.pythonFiles_fst hexclude)
  rw [hscan] at hnotice
  cases found with
  | error e =>
    simp only [hscan] at hother ⊢
    have he : e = .cancelled dir := by
      have hcancelled := hother _ rfl
      rcases Scan.select_error hselect.symm with ⟨w, -, rfl⟩ | ⟨-, he⟩ | ⟨path, -, p, -, rfl⟩
      · cases hcancelled
      · exact he
      · cases hcancelled
    have hearly := hnotice.mp (congrArg Except.error he)
    exact ⟨fun _ => ⟨rfl, congrArg (some ∘ Error.listing) he⟩, fun hnot => absurd hearly hnot⟩
  | ok files =>
    simp only [hscan, List.length_map] at hcancel ⊢
    refine ⟨fun hearly => ?_, fun _ => ⟨if_pos hcancel, files, _, ?_, rfl, ?_⟩⟩
    · have := hnotice.mpr hearly
      cases this
    · have hfiles : (Scan.pythonFiles t cwd dir c.exclude (cancel.seen 0)).1 = .ok files := by
        rw [hscan]
      exact ⟨hdirectory, hroot, _, Prod.ext (Scan.pythonFiles_uncancelled hfiles) rfl⟩
    · rw [List.map_map]
      rfl

/-- What a call over a package with well-formed patterns gives when it is cancelled and meets no
other error, wherever it is cancelled and however its steps follow each other: the summary of the
files that were read, unless the scan visits a file after that, which loses the summary. The run
that converts one file after the other loses it when it is cancelled beforehand. -/
theorem cancelled_call (c : Converter) (faults : Faults) (t : FileTree) (cwd : Location)
    (dir : Text) (hdirectory : Package.validateDirectory t cwd dir = .ok ())
    (hroot : Package.isRoot c.files t dir = .ok true)
    (hexclude : ∀ p ∈ c.exclude, Glob.isValid p = true) :
    (∀ ms k, (Call.entering false).moves c faults cwd dir t ms = some k → k.returned = true →
      .cancel ∈ ms → (∀ e, k.error dir = some e → e.isCancelled = true) →
      Interrupted c t cwd dir (VisitedLate ms) (processed ms) (k.summary c cwd dir)
        (k.error dir)) ∧
      ∀ cancel : Cancellation, cancel.seen (run c cancel t cwd dir).reads.length = true →
        (∀ e, (run c cancel t cwd dir).error = some e → e.isCancelled = true) →
        Interrupted c t cwd dir (cancel.seen 0 = true ∧ (Scan.walkRoot t cwd dir).1 ≠ [])
          (fun _ => (run c cancel t cwd dir).reads) (run c cancel t cwd dir).summary
          (run c cancel t cwd dir).error := by
  have hvalid := Scan.validate_eq_ok.mpr hexclude
  constructor
  · intro ms k hmoves hreturned hcancel hother
    have hskipped : outset c t cwd dir ≠ .error none := by
      simp only [outset, hdirectory, hroot]
      split
      · simp
      · simp
    exact (Call.moves_traced hmoves).interrupted hskipped hreturned hcancel hother
  · intro cancel hcancel hother
    exact run_interrupted hdirectory hroot hvalid hcancel hother

/-- The call is cancelled when the first of three files was found, and goes on to the second. -/
def scanMoves : List Move := [.enter, .visit, .cancel, .visit]

theorem cancelled_call_pairPackage :
    ∃ k, (Call.entering false).moves pairConverter pairFaults [] ['p'] pairPackage workMoves =
        some k ∧ k.error ['p'] = some (.cancelled ['p']) ∧
      ∃ results, k.summary pairConverter [] ['p'] =
          some ⟨['p'], Package.name [] ['p'], false, false, results⟩ ∧
        results.map (·.path) = ["p/__init__.py".toList, "p/a.py".toList] := by
  have hends : ((Call.entering false).moves pairConverter pairFaults [] ['p'] pairPackage
      workMoves).map (fun k => (k.returned, k.error ['p'])) =
        some (true, some (.cancelled ['p'])) := by decide +kernel
  obtain ⟨k, hk, hpair⟩ := Option.map_eq_some_iff.mp hends
  obtain ⟨hreturned, herror⟩ := Prod.mk.inj hpair
  have hother : ∀ e, k.error ['p'] = some e → e.isCancelled = true := by
    intro e he
    rw [herror] at he
    cases he
    rfl
  have hgiven := (cancelled_call pairConverter pairFaults pairPackage [] ['p'] rfl rfl nofun).1
    workMoves k hk hreturned (by decide) hother
  have htime : ¬VisitedLate workMoves := by
    intro hlate
    have hlost := (hgiven.lost hlate).2
    rw [herror] at hlost
    cases hlost
  obtain ⟨-, files, results, hreach, hsummary, hpaths⟩ := hgiven.given htime
  obtain ⟨_, hscan⟩ := hreach.scanned
  obtain ⟨_, hpair⟩ := reaches_pairPackage.scanned
  rw [hscan] at hpair
  cases hpair
  refine ⟨k, hk, herror, results, hsummary, ?_⟩
  rw [hpaths]
  decide

/-- A summary is lost: the call is cancelled beforehand or in the scan, nothing else is wrong, and
it returns an error alone. -/
theorem cancelled_call_lost :
    Package.validateDirectory pairPackage [] ['p'] = .ok () ∧
      Package.isRoot pairConverter.files pairPackage ['p'] = .ok true ∧
      (∀ p ∈ pairConverter.exclude, Glob.isValid p = true) ∧
      (run pairConverter .beforehand pairPackage [] ['p']).summary = none ∧
      (run pairConverter .beforehand pairPackage [] ['p']).error =
        some (.listing (.cancelled ['p'])) ∧
      (Call.entering false).moves pairConverter pairFaults [] ['p'] pairPackage scanMoves =
        some (.failed (.listing (.cancelled ['p']))) := by
  refine ⟨rfl, rfl, nofun, ?_, ?_, ?_⟩
  · rfl
  · rfl
  · rfl

end Cancelled

end AbsoluteImports.Conversion
