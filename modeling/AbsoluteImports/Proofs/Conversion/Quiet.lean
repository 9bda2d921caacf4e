import AbsoluteImports.Proofs.Conversion.Calls
import AbsoluteImports.Proofs.Conversion.Consistency

/-!
# Calls with nothing to do

A call is quiet when it returns no error and finds every file unchanged. Whether a call is quiet
can be read off the tree that it begins with: it does not depend on whether the call may write, nor
on the order in which workers take their steps, and a quiet call leaves the tree as it is. Links
are allowed here.
-/

namespace AbsoluteImports.Conversion

variable {c : Converter} {cwd : Location} {package path dir : Text} {t : FileTree}

/-! ### One file -/

/-- A file in which nothing is to be changed. -/
def Still (c : Converter) (package : Text) (t : FileTree) (path : Text) : Prop :=
  ∃ d, c.files.read t path = .ok d ∧ Change.list package d.lines = []

theorem convertFile_still (h : Still c package t path) :
    (convertFile c package t path).result = ⟨path, .unchanged, [], none⟩ ∧
      (convertFile c package t path).tree = t := by
  obtain ⟨d, hread, hnone⟩ := h
  obtain ⟨hresult, -, htree⟩ := (Handles.still d hread hnone).eq
  exact ⟨hresult, htree⟩

theorem Handles.still_of_unchanged {left : FileTree} {r : Result} {wrote : Bool}
    (h : Handles c package t path r wrote left) (hunchanged : r.outcome = .unchanged) :
    Still c package t path := by
  cases h with
  | still d hread hnone => exact ⟨d, hread, hnone⟩
  | _ => cases hunchanged

theorem still_iff :
    Still c package t path ↔ (convertFile c package t path).result.outcome = .unchanged := by
  constructor
  · intro h
    rw [(convertFile_still h).1]
  · exact (convertFile_handles c package t path).still_of_unchanged

theorem convertFiles_still_iff {paths : List Text} (reads : Nat) :
    (∀ r ∈ (convertFiles c package .never reads t paths).1, r.result.outcome = .unchanged) ↔
      ∀ path ∈ paths, Still c package t path := by
  induction paths generalizing reads with
  | nil => simp [convertFiles]
  | cons path rest ih =>
    rw [convertFiles_never_cons]
    simp only [List.forall_mem_cons, ← still_iff]
    constructor
    · rintro ⟨hfirst, hrest⟩
      rw [(convertFile_still hfirst).2, ih] at hrest
      exact ⟨hfirst, hrest⟩
    · rintro ⟨hfirst, hrest⟩
      rw [(convertFile_still hfirst).2, ih]
      exact ⟨hfirst, hrest⟩

/-! ### One directory -/

/-- A directory in which nothing is to be changed: it is no package, or its files are still. -/
def Settled (c : Converter) (cwd : Location) (t : FileTree) (dir : Text) : Prop :=
  Package.validateDirectory t cwd dir = .ok () ∧
    (Package.isRoot c.files t dir = .ok false ∨
      ∃ files, Reaches c t cwd dir files ∧ ∀ path ∈ files, Still c (Package.name cwd dir) t path)

theorem settled_dryRun (b : Bool) :
    Settled { c with dryRun := b } cwd t dir ↔ Settled c cwd t dir := by
  have hreach : ∀ files, Reaches { c with dryRun := b } t cwd dir files ↔
      Reaches c t cwd dir files :=
    fun _ => ⟨fun ⟨h, h', h''⟩ => ⟨h, h', h''⟩, fun ⟨h, h', h''⟩ => ⟨h, h', h''⟩⟩
  simp only [Settled, hreach, Still]

theorem Reaches.settled_iff {files : List Text} (h : Reaches c t cwd dir files) :
    Settled c cwd t dir ↔ ∀ path ∈ files, Still c (Package.name cwd dir) t path := by
  constructor
  · rintro ⟨-, hnot | ⟨files', h', hstill⟩⟩
    · rw [h.root] at hnot
      cases hnot
    · rw [h.unique h']
      exact hstill
  · intro hstill
    exact ⟨h.directory, .inr ⟨files, h, hstill⟩⟩

def Run.Quiet (r : Run) : Prop :=
  r.error = none ∧ ∀ summary ∈ r.summary, ∀ x ∈ summary.results, x.outcome = .unchanged

/-- What is said of a call by the tree that it begins with. -/
structure Judged (c : Converter) (cwd : Location) (t : FileTree) (dir : Text) (r : Run) :
    Prop where
  quiet : r.Quiet ↔ Settled c cwd t dir
  tree : r.Quiet → r.tree = t
  dry : c.dryRun = true → r.tree = t
  known : ∀ summary ∈ r.summary, ∀ x ∈ summary.results, x.outcome ≠ .unknown

theorem outset_eq_none : outset c t cwd dir = .error none ↔
    Package.validateDirectory t cwd dir = .ok () ∧ Package.isRoot c.files t dir = .ok false := by
  unfold outset
  cases Package.validateDirectory t cwd dir with
  | error e => simp
  | ok _ =>
    cases Package.isRoot c.files t dir with
    | error e => simp
    | ok root =>
      cases root with
      | false => simp
      | true =>
        simp only
        split
        · simp
        · simp

theorem Run.Stopped.judged {r : Run} {e : Option Error} (h : r.Stopped c t dir e)
    (ho : outset c t cwd dir = .error e) : Judged c cwd t dir r := by
  refine ⟨⟨?_, ?_⟩, fun _ => h.tree, fun _ => h.tree, ?_⟩
  · intro hquiet
    have hnone : e = none := h.error.symm.trans hquiet.1
    rw [hnone] at ho
    obtain ⟨hvalid, hroot⟩ := outset_eq_none.mp ho
    exact ⟨hvalid, .inl hroot⟩
  · intro hsettled
    obtain ⟨hvalid, hroot | ⟨files, hreach, -⟩⟩ := hsettled
    · rw [outset_eq_none.mpr ⟨hvalid, hroot⟩] at ho
      cases ho
      refine ⟨h.error, fun summary hsummary x hx => ?_⟩
      rw [h.results_eq summary hsummary] at hx
      cases hx
    · rw [hreach.outset_eq] at ho
      cases ho
  · intro summary hsummary x hx
    rw [h.results_eq summary hsummary] at hx
    cases hx

theorem run_judged (c : Converter) (cwd : Location) (t : FileTree) (dir : Text) :
    Judged c cwd t dir (run c .never t cwd dir) := by
  cases hout : outset c t cwd dir with
  | error e => exact (run_stopped hout).judged hout
  | ok files =>
    have hreach := reaches_of_outset hout
    obtain ⟨hsummary, herror, htree, -⟩ := hreach.run_eq
    have hall : (run c .never t cwd dir).Quiet ↔
        ∀ path ∈ files, Still c (Package.name cwd dir) t path := by
      rw [← convertFiles_still_iff 0, Run.Quiet, hsummary, herror]
      simp
    refine ⟨hall.trans hreach.settled_iff.symm, ?_, ?_, ?_⟩
    · intro hquiet
      have hstill := convertFiles_of_still (t := t) 0 fun path hpath =>
        (convertFile_still (hall.mp hquiet path hpath)).2
      rw [htree, hstill]
    · intro hdry
      have hstill := convertFiles_of_still (t := t) 0
        fun path (_ : path ∈ files) => tree_of_dryRun hdry (Package.name cwd dir) t path
      rw [htree, hstill]
    · intro summary hmem x hx
      rw [hsummary] at hmem
      cases hmem
      obtain ⟨r, hr, rfl⟩ := List.mem_map.mp hx
      exact (convertFiles_consistent 0 r hr).known

/-! ### Workers -/

section Workers

variable {faults : Faults} {files : List Text} {s s' : State} {a : Label}

/-- Nothing was written so far, and every result is the one in this tree. -/
structure State.Unmoved (c : Converter) (package : Text) (t : FileTree) (s : State) : Prop where
  tree : s.tree = t
  reading : ∀ {i : Nat} {job : Job}, s.jobs[i]? = some job →
    ∀ changes content stage, job.phase ≠ .writing changes content stage
  results : ∀ {i : Nat} {job : Job} {r : Result}, s.jobs[i]? = some job →
    job.phase = .finished r → r = (convertFile c package t job.path).result

/-- Some file is being written, or has another result than that it is unchanged. -/
def State.Disturbed (s : State) : Prop :=
  ∃ (i : Nat) (job : Job), s.jobs[i]? = some job ∧
    ((∃ changes content stage, job.phase = .writing changes content stage) ∨
      ∃ r, job.phase = .finished r ∧ r.outcome ≠ .unchanged)

theorem Step.paths (hstep : Step c faults cwd package s a s') :
    s'.jobs.map (·.path) = s.jobs.map (·.path) := by
  cases hstep with
  | launch hloop hfree hjob => exact map_path_set hjob _
  | act hjob hact => exact map_path_set hjob _
  | _ => rfl

theorem Phase.opened_cases (c : Converter) (package path : Text) (t : FileTree) :
    Phase.opened c package path (c.files.read t path) =
        .finished (convertFile c package t path).result ∨
      (∃ changes content, Phase.opened c package path (c.files.read t path) =
          .writing changes content .checking) ∧ c.dryRun = false ∧
        ¬Still c package t path := by
  cases hread : c.files.read t path with
  | error e =>
    rw [(Handles.unread e hread).eq.1]
    exact .inl rfl
  | ok d =>
    by_cases hempty : Change.list package d.lines = []
    · rw [(Handles.still d hread hempty).eq.1]
      exact .inl (by simp [Phase.opened, hempty])
    cases hdry : c.dryRun with
    | true =>
      rw [(Handles.reported d hread hempty hdry).eq.1]
      exact .inl (by simp [Phase.opened, hempty, hdry])
    | false =>
      refine .inr ⟨⟨_, _, by simp [Phase.opened, hempty, hdry]; exact ⟨rfl, rfl⟩⟩, rfl, ?_⟩
      rintro ⟨d', hread', hempty'⟩
      rw [hread] at hread'
      cases hread'
      exact hempty hempty'

theorem State.Unmoved.set (h : s.Unmoved c package t) {i : Nat} {phase phase' : Phase}
    (hjob : s.jobs[i]? = some ⟨path, phase⟩)
    (hwriting : ∀ changes content stage, phase' ≠ .writing changes content stage)
    (hresult : ∀ r, phase' = .finished r → r = (convertFile c package t path).result)
    (loop : Loop) (cancelled : Bool) :
    State.Unmoved c package t ⟨s.tree, s.jobs.set i ⟨path, phase'⟩, loop, cancelled⟩ := by
  refine ⟨h.tree, ?_, ?_⟩
  · intro j job hj
    rw [getElem?_set_of_some hjob] at hj
    split at hj
    · cases hj
      exact hwriting
    · exact h.reading hj
  · intro j job r hj hr
    rw [getElem?_set_of_some hjob] at hj
    split at hj
    · cases hj
      exact hresult r hr
    · exact h.results hj hr

/-- From a state where nothing was written, a step leads to another, or a file that is to be
changed is going to be written. -/
theorem State.Unmoved.next (h : s.Unmoved c package t) (hstep : Step c faults cwd package s a s') :
    s'.Unmoved c package t ∨
      s'.Disturbed ∧ c.dryRun = false ∧ ∃ job ∈ s.jobs, ¬Still c package t job.path := by
  cases hstep with
  | launch hloop hfree hjob => exact .inl (h.set hjob (by simp) (by simp) _ _)
  | @act i action path phase phase' tree hjob hact =>
    cases Phase.act_eq_some hact with
    | check =>
      refine .inl (h.set hjob ?_ ?_ _ _)
      · intro changes content stage
        split
        · simp
        · simp
      · intro r hr
        split at hr
        · cases hr
        · cases hr
    | read =>
      rw [h.tree]
      rcases Phase.opened_cases c package path t with hdone | ⟨⟨changes, content, hwrite⟩, hdry,
          hnot⟩
      · left
        rw [hdone]
        have hset : State.Unmoved c package t ⟨s.tree, s.jobs.set i
            ⟨path, .finished (convertFile c package t path).result⟩, s.loop, s.cancelled⟩ :=
          h.set hjob (by simp) (fun r hr => by cases hr; rfl) _ _
        rw [h.tree] at hset
        exact hset
      · right
        rw [hwrite]
        refine ⟨⟨i, ⟨path, .writing changes content .checking⟩, ?_,
          .inl ⟨changes, content, _, rfl⟩⟩, hdry, _, List.mem_of_getElem? hjob, hnot⟩
        rw [getElem?_set_of_some hjob, if_pos rfl]
    | @write changes content stage stage' choice tree hnext =>
      exact absurd rfl (h.reading hjob changes content stage)
  | _ => exact .inl ⟨h.tree, h.reading, h.results⟩

theorem State.Disturbed.next (h : s.Disturbed) (hstep : Step c faults cwd package s a s') :
    s'.Disturbed := by
  obtain ⟨i, job, hjob, hphase⟩ := h
  cases hstep with
  | @launch k path hloop hfree hk =>
    refine ⟨i, job, ?_, hphase⟩
    rw [getElem?_set_of_some hk, if_neg ?_]
    · exact hjob
    · rintro rfl
      rw [hk] at hjob
      cases hjob
      rcases hphase with ⟨changes, content, stage, hw⟩ | ⟨r, hr, -⟩
      · cases hw
      · cases hr
  | @act k action path phase phase' tree hk hact =>
    by_cases hik : i = k
    · subst hik
      rw [hk] at hjob
      cases hjob
      refine ⟨i, ⟨path, phase'⟩, by rw [getElem?_set_of_some hk, if_pos rfl], ?_⟩
      rcases hphase with ⟨changes, content, stage, rfl⟩ | ⟨r, rfl, -⟩
      · cases Phase.act_eq_some hact with
        | write hnext =>
          simp only [Phase.written]
          split
          · exact .inr ⟨_, rfl, by simp⟩
          · exact .inr ⟨_, rfl, by simp⟩
          · exact .inl ⟨_, _, _, rfl⟩
      · cases hact
    · exact ⟨i, job, by rw [getElem?_set_of_some hk, if_neg hik]; exact hjob, hphase⟩
  | _ => exact ⟨i, job, hjob, hphase⟩

theorem State.start_unmoved (c : Converter) (package : Text) (t : FileTree) (files : List Text) :
    (State.start t files).Unmoved c package t := by
  refine ⟨rfl, ?_, ?_⟩
  · intro i job hjob changes content stage
    rw [State.phase_start hjob]
    simp
  · intro i job r hjob hr
    rw [State.phase_start hjob] at hr
    cases hr

theorem State.steps_paths {labels : List Label}
    (hsteps : (State.start t files).steps c faults cwd package labels = some s) :
    s.jobs.map (·.path) = files :=
  State.steps_induction (P := fun s => s.jobs.map (·.path) = files)
    (fun h hstep => hstep.paths.trans h) (by simp [State.start, Function.comp_def]) hsteps

theorem State.steps_unmoved {labels : List Label}
    (hsteps : (State.start t files).steps c faults cwd package labels = some s)
    (hcase : c.dryRun = true ∨ ∀ path ∈ files, Still c package t path) :
    s.Unmoved c package t := by
  refine (State.steps_induction
    (P := fun s => s.jobs.map (·.path) = files ∧ s.Unmoved c package t) ?_
    ⟨by simp [State.start, Function.comp_def], State.start_unmoved c package t files⟩ hsteps).2
  intro s s' a h hstep
  obtain ⟨hfiles, h⟩ := h
  refine ⟨hstep.paths.trans hfiles, ?_⟩
  rcases h.next hstep with h' | ⟨-, hdry, job, hjob, hnot⟩
  · exact h'
  · rcases hcase with hdry' | hstill
    · rw [hdry'] at hdry
      cases hdry
    · refine absurd (hstill job.path ?_) hnot
      rw [← hfiles]
      exact List.mem_map.mpr ⟨job, hjob, rfl⟩

/-- A file that was written has a result that says so. -/
theorem State.unmoved_of_unchanged {labels : List Label}
    (hsteps : (State.start t files).steps c faults cwd package labels = some s)
    (hfinished : ∀ {i : Nat} {job : Job}, s.jobs[i]? = some job → ∃ r, job.phase = .finished r)
    (hall : ∀ r ∈ resultsOf s.jobs, r.outcome = .unchanged) : s.Unmoved c package t := by
  have heither : s.Unmoved c package t ∨ s.Disturbed := by
    refine State.steps_induction (P := fun s => s.Unmoved c package t ∨ s.Disturbed) ?_
      (.inl (State.start_unmoved c package t files)) hsteps
    intro s s' a h hstep
    rcases h with h | h
    · exact (h.next hstep).imp id And.left
    · exact .inr (h.next hstep)
  refine heither.resolve_right fun hdisturbed => ?_
  obtain ⟨i, job, hjob, hphase⟩ := hdisturbed
  rcases hphase with ⟨changes, content, stage, hw⟩ | ⟨r, hr, hne⟩
  · obtain ⟨r, hr⟩ := hfinished hjob
    rw [hw] at hr
    cases hr
  · exact hne (hall r (mem_resultsOf.mpr ⟨job, List.mem_of_getElem? hjob, hr⟩))

/-- A call that returns finds every file unchanged when each is, in the tree before the first; it
has left the tree as it is then, and in a dry run anyway. -/
theorem State.steps_still {labels : List Label}
    (hsteps : (State.start t files).steps c faults cwd package labels = some s)
    (hreturned : s.loop = .returned) (hcancelled : s.cancelled = false) :
    ((∀ r ∈ resultsOf s.jobs, r.outcome = .unchanged) ↔
        ∀ path ∈ files, Still c package t path) ∧
      ((∀ r ∈ resultsOf s.jobs, r.outcome = .unchanged) → s.tree = t) ∧
      (c.dryRun = true → s.tree = t) := by
  have hpaths := State.steps_paths hsteps
  have hfinished : ∀ {i : Nat} {job : Job}, s.jobs[i]? = some job →
      ∃ r, job.phase = .finished r :=
    fun hjob => (State.steps_ordered hsteps).finished hreturned hcancelled hjob
  have hquiet := State.unmoved_of_unchanged hsteps hfinished
  refine ⟨⟨?_, ?_⟩, fun hall => (hquiet hall).tree,
    fun hdry => (State.steps_unmoved hsteps (.inl hdry)).tree⟩
  · intro hall path hpath
    rw [← hpaths] at hpath
    obtain ⟨job, hjob, rfl⟩ := List.mem_map.mp hpath
    obtain ⟨i, hi⟩ := List.getElem?_of_mem hjob
    obtain ⟨r, hr⟩ := hfinished hi
    rw [still_iff, ← (hquiet hall).results hi hr]
    exact hall r (mem_resultsOf.mpr ⟨job, hjob, hr⟩)
  · intro hstill r hr
    obtain ⟨job, hjob, hphase⟩ := mem_resultsOf.mp hr
    obtain ⟨i, hi⟩ := List.getElem?_of_mem hjob
    rw [(State.steps_unmoved hsteps (.inr hstill)).results hi hphase, ← still_iff]
    refine hstill job.path ?_
    rw [← hpaths]
    exact List.mem_map.mpr ⟨job, hjob, rfl⟩

end Workers

theorem Called.judged {faults : Faults} {r : Run} (h : Called c faults cwd t dir false r) :
    Judged c cwd t dir r := by
  cases hout : outset c t cwd dir with
  | error e => exact (h.stopped hout).judged hout
  | ok files =>
    cases h with
    | sequential cancel hnever =>
      obtain rfl : cancel = .never := hnever.resolve_right Bool.false_ne_true
      exact run_judged c cwd t dir
    | @workers ms k hmoves hreturned hnever events =>
      have hms : .cancel ∉ ms := hnever.resolve_right Bool.false_ne_true
      cases Call.moves_outcome hmoves hreturned with
      | stopped e hout' hstop => exact (hstop events).judged hout'
      | lost hlate => exact absurd hlate.cancelled hms
      | @worked files' labels s hout' hsteps hloop hlabels =>
        have hcancel : .cancel ∉ labels := fun hmem => hms ((hlabels .cancel).mp hmem)
        have hcancelled := State.not_cancelled hsteps hcancel
        obtain ⟨hstill, htree, hdry⟩ := State.steps_still hsteps hloop hcancelled
        have hquiet : ((Call.converting s).toRun c cwd dir t ms events).Quiet ↔
            ∀ r ∈ resultsOf s.jobs, r.outcome = .unchanged := by
          simp [Run.Quiet, Call.toRun, State.error, hcancelled, State.summary]
        refine ⟨?_, fun h => htree (hquiet.mp h), hdry, ?_⟩
        · rw [hquiet, hstill, (reaches_of_outset hout').settled_iff]
        · intro summary hsummary x hx
          cases hsummary
          exact (State.steps_consistent hsteps x hx).known

end AbsoluteImports.Conversion
