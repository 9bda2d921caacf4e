import AbsoluteImports.Proofs.Conversion.Workers

/-!
# The order in which files are worked on

Files are handed out in the order of the scan, all of them unless the call is cancelled, and no file
goes back to an earlier phase. With one worker, a file is handed out when those in front of it are
done with. A file that is looked at after the call was cancelled is given up before it is read.
-/

namespace AbsoluteImports.Conversion

/-! ### The order of the phases -/

/-- How far a file is on its way. -/
def Phase.rank : Phase → Nat
  | waiting => 0
  | started => 1
  | reading => 2
  | writing .. => 3
  | finished _ | dropped => 4

section Order

variable {c : Converter} {faults : Faults} {cwd : Location} {package : Text}
  {s s' : State} {a : Label}

/-- An action is made on a file with a worker, and never leads back. Only a look at a cancelled
call gives the file up. -/
structure Phase.Advances (cancelled : Bool) (phase phase' : Phase) (action : Action) : Prop where
  running : phase.running = true
  rank : phase.rank ≤ phase'.rank
  looked : 2 ≤ phase'.rank
  check : action = .check → phase = .started
  other : action ≠ .check → 2 ≤ phase.rank ∧ 3 ≤ phase'.rank ∧ phase' ≠ .dropped
  kept : action = .check → (phase' = .dropped ↔ cancelled = true)

theorem Phase.rank_le (phase : Phase) : phase.rank ≤ 4 := by
  cases phase <;> simp [Phase.rank]

theorem Phase.rank_opened (c : Converter) (package path : Text)
    (r : Except SourceFile.Error Document) :
    3 ≤ (Phase.opened c package path r).rank ∧ Phase.opened c package path r ≠ .dropped := by
  cases r with
  | error e => simp [Phase.opened, Phase.rank]
  | ok d =>
    simp only [Phase.opened]
    split
    · simp [Phase.rank]
    split
    · simp [Phase.rank]
    · simp [Phase.rank]

theorem Phase.rank_written (path : Text) (changes : List Change) (content : Bytes)
    (stage : SourceFile.Stage) :
    3 ≤ (Phase.written path changes content stage).rank ∧
      Phase.written path changes content stage ≠ .dropped := by
  unfold Phase.written
  split
  · simp [Phase.rank]
  · simp [Phase.rank]
  · simp [Phase.rank]

theorem Phase.act_advances {cancelled : Bool} {t t' : FileTree} {path : Text}
    {phase phase' : Phase} {action : Action}
    (h : phase.act c faults cwd package cancelled t path action = some (phase', t')) :
    phase.Advances cancelled phase' action := by
  cases Phase.act_eq_some h with
  | check =>
    cases cancelled with
    | true => exact ⟨rfl, by decide, by decide, fun _ => rfl, nofun, by simp⟩
    | false => exact ⟨rfl, by decide, by decide, fun _ => rfl, nofun, by simp⟩
  | read =>
    have hrank := Phase.rank_opened c package path (c.files.read t path)
    exact ⟨rfl, Nat.le_trans (by decide) hrank.1, Nat.le_trans (by decide) hrank.1, nofun,
      fun _ => ⟨by decide, hrank⟩, nofun⟩
  | @write changes content stage stage' choice t' hnext =>
    have hrank := Phase.rank_written path changes content stage'
    exact ⟨rfl, hrank.1, Nat.le_trans (by decide) hrank.1, nofun,
      fun _ => ⟨by simp [Phase.rank], hrank⟩, nofun⟩

theorem getElem?_set_of_some {jobs : List Job} {i : Nat} {old : Job} (h : jobs[i]? = some old)
    (job : Job) (j : Nat) : (jobs.set i job)[j]? = if j = i then some job else jobs[j]? := by
  obtain ⟨hi, -⟩ := List.getElem?_eq_some_iff.mp h
  by_cases hj : j = i
  · subst hj
    rw [List.getElem?_set_self hi, if_pos rfl]
  · rw [List.getElem?_set_ne (Ne.symm hj), if_neg hj]

/-! ### The loop over the files -/

/-- Files are handed out in order, and all of them unless the call is cancelled. -/
structure State.Ordered (s : State) : Prop where
  launched : ∀ k, s.loop = .looking k ∨ s.loop = .launching k → ∀ {i : Nat} {job : Job}, i < k →
    s.jobs[i]? = some job → job.phase ≠ .waiting
  complete : s.loop = .joining ∨ s.loop = .returned → s.cancelled = false → ∀ {i : Nat} {job : Job},
    s.jobs[i]? = some job → job.phase ≠ .waiting
  dropped : ∀ {i : Nat} {job : Job}, s.jobs[i]? = some job → job.phase = .dropped →
    s.cancelled = true
  idle : s.loop = .returned → ∀ {i : Nat} {job : Job}, s.jobs[i]? = some job →
    job.phase.running = false

theorem State.phase_start {t : FileTree} {files : List Text} {i : Nat} {job : Job}
    (h : (State.start t files).jobs[i]? = some job) : job.phase = .waiting := by
  simp only [State.start, List.getElem?_map, Option.map_eq_some_iff] at h
  obtain ⟨path, -, rfl⟩ := h
  rfl

theorem State.start_ordered (t : FileTree) (files : List Text) :
    (State.start t files).Ordered := by
  refine ⟨?_, ?_, ?_, ?_⟩
  · rintro k (hk | hk) i job hi
    · cases hk
      omega
    · cases hk
  · rintro (h | h)
    · cases h
    · cases h
  · intro i job hjob hdropped
    rw [State.phase_start hjob] at hdropped
    cases hdropped
  · intro h
    cases h

theorem State.not_running_of_idle (h : s.running = 0) {i : Nat} {job : Job}
    (hjob : s.jobs[i]? = some job) : job.phase.running = false := by
  have hnil : s.jobs.filter (·.phase.running) = [] := List.length_eq_zero_iff.mp h
  have hnone := List.filter_eq_nil_iff.mp hnil job (List.mem_of_getElem? hjob)
  simpa using hnone

/-- After a file was set to a phase, what held of all phases holds if it holds of this one. -/
theorem phase_of_set {jobs : List Job} {i j : Nat} {path : Text} {phase phase' : Phase} {job : Job}
    {P : Phase → Prop} (hjob : jobs[i]? = some ⟨path, phase⟩)
    (hj : (jobs.set i ⟨path, phase'⟩)[j]? = some job) (hset : P phase')
    (hrest : j ≠ i → jobs[j]? = some job → P job.phase) : P job.phase := by
  rw [getElem?_set_of_some hjob] at hj
  split at hj
  · cases hj
    exact hset
  · rename_i hne
    exact hrest hne hj

theorem State.Ordered.stop {i : Nat} (h : s.Ordered) (hloop : s.loop = .looking i)
    (hstop : s.jobs.length ≤ i ∨ s.cancelled = true) :
    State.Ordered { s with loop := .joining } := by
  refine ⟨by simp, ?_, h.dropped, nofun⟩
  intro _ hcancelled j job hjob
  rcases hstop with hlen | hc
  · have hj : j < s.jobs.length := (List.getElem?_eq_some_iff.mp hjob).1
    exact h.launched i (.inl hloop) (by omega) hjob
  · rw [hc] at hcancelled
    cases hcancelled

theorem State.Ordered.look {i : Nat} (h : s.Ordered) (hloop : s.loop = .looking i) :
    State.Ordered { s with loop := .launching i } := by
  refine ⟨?_, by simp, h.dropped, nofun⟩
  intro k hk j job hj hjob
  have hki : k = i := by
    rcases hk with hk | hk
    · cases hk
    · exact (Loop.launching.inj hk).symm
  exact h.launched i (.inl hloop) (hki ▸ hj) hjob

theorem State.Ordered.launch {i : Nat} {path : Text} (h : s.Ordered)
    (hloop : s.loop = .launching i) (hjob : s.jobs[i]? = some ⟨path, .waiting⟩) :
    State.Ordered { s with jobs := s.jobs.set i ⟨path, .started⟩, loop := .looking (i + 1) } := by
  refine ⟨?_, by simp, ?_, nofun⟩
  · intro k hk j job hj hjob'
    have hki : k = i + 1 := by
      rcases hk with hk | hk
      · exact (Loop.looking.inj hk).symm
      · cases hk
    refine phase_of_set (P := (· ≠ .waiting)) hjob hjob' (by simp) fun hne hold => ?_
    exact h.launched i (.inr hloop) (by omega) hold
  · intro j job hjob' hdropped
    refine phase_of_set (P := fun phase => phase = .dropped → s.cancelled = true) hjob hjob' nofun
      (fun _ hold => h.dropped hold) hdropped

theorem State.Ordered.act {i : Nat} {action : Action} {path : Text} {phase phase' : Phase}
    {tree : FileTree} (h : s.Ordered) (hjob : s.jobs[i]? = some ⟨path, phase⟩)
    (hadv : phase.Advances s.cancelled phase' action) :
    State.Ordered { s with tree := tree, jobs := s.jobs.set i ⟨path, phase'⟩ } := by
  have hnotwaiting : phase' ≠ .waiting := by
    intro hw
    have hlooked := hadv.looked
    rw [hw] at hlooked
    exact absurd hlooked (by decide)
  refine ⟨?_, ?_, ?_, ?_⟩
  · intro k hk j job hj hjob'
    exact phase_of_set (P := (· ≠ .waiting)) hjob hjob' hnotwaiting
      fun _ hold => h.launched k hk hj hold
  · intro hk hc j job hjob'
    exact phase_of_set (P := (· ≠ .waiting)) hjob hjob' hnotwaiting
      fun _ hold => h.complete hk hc hold
  · intro j job hjob'
    refine phase_of_set (P := fun phase => phase = .dropped → s.cancelled = true) hjob hjob' ?_
      fun _ hold => h.dropped hold
    intro hdropped
    by_cases hcheck : action = .check
    · exact (hadv.kept hcheck).mp hdropped
    · exact absurd hdropped (hadv.other hcheck).2.2
  · -- no file is in work when the call has returned
    intro hk
    exact absurd hadv.running (by simp [h.idle hk hjob])

theorem State.Ordered.finish (h : s.Ordered) (hloop : s.loop = .joining) (hidle : s.running = 0) :
    State.Ordered { s with loop := .returned } := by
  refine ⟨by simp, ?_, h.dropped, ?_⟩
  · intro _ hc i job hjob
    exact h.complete (.inl hloop) hc hjob
  · intro _ i job hjob
    exact State.not_running_of_idle hidle hjob

theorem State.Ordered.next (h : s.Ordered) (hstep : Step c faults cwd package s a s') :
    s'.Ordered := by
  cases hstep with
  | stop hloop hstop => exact h.stop hloop hstop
  | look hloop hc => exact h.look hloop
  | launch hloop hfree hjob => exact h.launch hloop hjob
  | act hjob hact => exact h.act hjob (Phase.act_advances hact)
  | cancel hloop => exact ⟨h.launched, nofun, fun _ _ => rfl, h.idle⟩
  | finish hloop hidle => exact h.finish hloop hidle

theorem State.steps_ordered {t : FileTree} {files : List Text} {labels : List Label}
    (h : (State.start t files).steps c faults cwd package labels = some s) : s.Ordered :=
  State.steps_induction (fun hs hstep => hs.next hstep) (State.start_ordered t files) h

/-! ### One worker -/

/-- With one worker, a file is not handed out before those in front of it are done with, and not
read unless these were finished. -/
structure State.InTurn (s : State) : Prop where
  settled : ∀ {i j : Nat} {job job' : Job}, i < j → s.jobs[i]? = some job → s.jobs[j]? = some job' →
    job'.phase ≠ .waiting → job.phase.rank = 4
  done : ∀ {i j : Nat} {job job' : Job}, i < j → s.jobs[i]? = some job → s.jobs[j]? = some job' →
    2 ≤ job'.phase.rank → job'.phase ≠ .dropped → ∃ r, job.phase = .finished r

theorem State.start_inTurn (t : FileTree) (files : List Text) : (State.start t files).InTurn := by
  refine ⟨?_, ?_⟩
  · intro i j job job' _ _ hjob' hne
    exact absurd (State.phase_start hjob') hne
  · intro i j job job' _ _ hjob' hrank
    rw [State.phase_start hjob'] at hrank
    exact absurd hrank (by decide)

theorem Phase.rank_of_idle {phase : Phase} (hw : phase ≠ .waiting) (hr : phase.running = false) :
    phase.rank = 4 := by
  cases phase with
  | waiting => exact absurd rfl hw
  | started => cases hr
  | reading => cases hr
  | writing => cases hr
  | finished r => rfl
  | dropped => rfl

theorem Phase.rank_of_running {phase : Phase} (h : phase.running = true) : phase.rank ≠ 4 := by
  cases phase with
  | waiting => cases h
  | started => decide
  | reading => decide
  | writing => simp [Phase.rank]
  | finished r => cases h
  | dropped => cases h

theorem Phase.finished_of_rank {phase : Phase} (h : phase.rank = 4) (hd : phase ≠ .dropped) :
    ∃ r, phase = .finished r := by
  cases phase with
  | waiting => cases h
  | started => cases h
  | reading => cases h
  | writing => cases h
  | finished r => exact ⟨r, rfl⟩
  | dropped => exact absurd rfl hd

theorem State.InTurn.launch {k : Nat} {path : Text} (ho : s.Ordered) (h : s.InTurn)
    (hloop : s.loop = .launching k) (hidle : s.running = 0)
    (hjob : s.jobs[k]? = some ⟨path, .waiting⟩) :
    State.InTurn { s with jobs := s.jobs.set k ⟨path, .started⟩, loop := .looking (k + 1) } := by
  refine ⟨?_, ?_⟩
  · intro i j job job' hij hi hj hne
    rw [getElem?_set_of_some hjob] at hi hj
    split at hj
    · rename_i hjk
      have hik : i ≠ k := by omega
      rw [if_neg hik] at hi
      exact Phase.rank_of_idle (ho.launched k (.inr hloop) (by omega) hi)
        (State.not_running_of_idle hidle hi)
    · split at hi
      · rename_i hjk hik
        subst hik
        exact absurd (h.settled hij hjob hj hne) (by simp [Phase.rank])
      · exact h.settled hij hi hj hne
  · intro i j job job' hij hi hj hrank hnd
    rw [getElem?_set_of_some hjob] at hi hj
    split at hj
    · cases hj
      exact absurd hrank (by simp [Phase.rank])
    · split at hi
      · rename_i hjk hik
        subst hik
        obtain ⟨r, hr⟩ := h.done hij hjob hj hrank hnd
        cases hr
      · exact h.done hij hi hj hrank hnd

section Acting

variable {k : Nat} {action : Action} {path : Text} {phase phase' : Phase}

theorem State.InTurn.last (h : s.InTurn) (hjob : s.jobs[k]? = some ⟨path, phase⟩)
    (hrunning : phase.running = true) {j : Nat} {job : Job} (hkj : k < j)
    (hj : s.jobs[j]? = some job) : job.phase = .waiting := by
  by_contra hne
  exact absurd (h.settled hkj hjob hj hne) (Phase.rank_of_running hrunning)

theorem State.InTurn.act_settled (h : s.InTurn) (hjob : s.jobs[k]? = some ⟨path, phase⟩)
    (hrunning : phase.running = true) {i j : Nat} {job job' : Job} (hij : i < j)
    (hi : (s.jobs.set k ⟨path, phase'⟩)[i]? = some job)
    (hj : (s.jobs.set k ⟨path, phase'⟩)[j]? = some job') (hne : job'.phase ≠ .waiting) :
    job.phase.rank = 4 := by
  have hwaiting : phase ≠ .waiting := by
    rintro rfl
    cases hrunning
  rw [getElem?_set_of_some hjob] at hi hj
  split at hi
  · rename_i hik
    subst hik
    rw [if_neg (by omega)] at hj
    exact absurd (h.last hjob hrunning hij hj) hne
  · split at hj
    · rename_i hik hjk
      subst hjk
      exact h.settled hij hi hjob hwaiting
    · exact h.settled hij hi hj hne

theorem State.InTurn.act_done (ho : s.Ordered) (h : s.InTurn)
    (hjob : s.jobs[k]? = some ⟨path, phase⟩) (hadv : phase.Advances s.cancelled phase' action)
    {i j : Nat} {job job' : Job} (hij : i < j)
    (hi : (s.jobs.set k ⟨path, phase'⟩)[i]? = some job)
    (hj : (s.jobs.set k ⟨path, phase'⟩)[j]? = some job') (hrank : 2 ≤ job'.phase.rank)
    (hnd : job'.phase ≠ .dropped) : ∃ r, job.phase = .finished r := by
  rw [getElem?_set_of_some hjob] at hi hj
  split at hi
  · rename_i hik
    subst hik
    rw [if_neg (by omega)] at hj
    rw [h.last hjob hadv.running hij hj] at hrank
    exact absurd hrank (by decide)
  · split at hj
    · rename_i hik hjk
      subst hjk
      cases hj
      have hwaiting : phase ≠ .waiting := by
        rintro rfl
        exact absurd hadv.running (by decide)
      by_cases hcheck : action = .check
      · -- the call was not cancelled yet, so nothing in front was given up
        refine Phase.finished_of_rank (h.settled hij hi hjob hwaiting) fun hdropped => ?_
        exact hnd ((hadv.kept hcheck).mpr (ho.dropped hi hdropped))
      · refine h.done hij hi hjob (hadv.other hcheck).1 ?_
        rintro rfl
        exact absurd hadv.running (by decide)
    · exact h.done hij hi hj hrank hnd

end Acting

theorem State.InTurn.next (hone : c.workers = 1) (ho : s.Ordered) (h : s.InTurn)
    (hstep : Step c faults cwd package s a s') : s'.InTurn := by
  cases hstep with
  | stop => exact ⟨h.settled, h.done⟩
  | look => exact ⟨h.settled, h.done⟩
  | cancel => exact ⟨h.settled, h.done⟩
  | finish => exact ⟨h.settled, h.done⟩
  | launch hloop hfree hjob => exact h.launch ho hloop (by omega) hjob
  | act hjob hact =>
    have hadv := Phase.act_advances hact
    exact ⟨h.act_settled hjob hadv.running, h.act_done ho hjob hadv⟩

theorem State.steps_inTurn {t : FileTree} {files : List Text} {labels : List Label}
    (hone : c.workers = 1)
    (h : (State.start t files).steps c faults cwd package labels = some s) : s.InTurn := by
  have hboth := State.steps_induction (P := fun s => s.Ordered ∧ s.InTurn)
    (fun h hstep => ⟨h.1.next hstep, h.2.next hone h.1 hstep⟩)
    ⟨State.start_ordered t files, State.start_inTurn t files⟩ h
  exact hboth.2

theorem State.Ordered.finished (h : s.Ordered) (hreturned : s.loop = .returned)
    (hcancelled : s.cancelled = false) {i : Nat} {job : Job} (hjob : s.jobs[i]? = some job) :
    ∃ r, job.phase = .finished r := by
  refine Phase.finished_of_rank (Phase.rank_of_idle ?_ (h.idle hreturned hjob)) ?_
  · exact h.complete (.inr hreturned) hcancelled hjob
  · intro hdropped
    rw [h.dropped hjob hdropped] at hcancelled
    cases hcancelled

end Order

/-! ### Cancelling -/

section Cancelling

variable {c : Converter} {faults : Faults} {cwd : Location} {package : Text}
  {s s' : State} {a : Label} {labels : List Label} {i : Nat}

theorem Step.cancelled (hstep : Step c faults cwd package s a s') :
    s'.cancelled = true ↔ s.cancelled = true ∨ a = .cancel := by
  cases hstep with
  | cancel => simp
  | _ => simp

theorem State.steps_cancelled_iff (h : s.steps c faults cwd package labels = some s') :
    s'.cancelled = true ↔ s.cancelled = true ∨ .cancel ∈ labels := by
  induction labels generalizing s with
  | nil =>
    cases h
    simp
  | cons a rest ih =>
    obtain ⟨mid, hmid, hrest⟩ := Option.bind_eq_some_iff.mp h
    rw [ih hrest, (State.step_eq_some hmid).cancelled, List.mem_cons, or_assoc, eq_comm (a := a)]

theorem State.not_cancelled {t : FileTree} {files : List Text}
    (h : (State.start t files).steps c faults cwd package labels = some s)
    (hcancel : .cancel ∉ labels) : s.cancelled = false := by
  cases hc : s.cancelled with
  | false => rfl
  | true =>
    rcases (State.steps_cancelled_iff h).mp hc with hstart | hmem
    · cases hstart
    · exact absurd hmem hcancel

theorem State.steps_append {pre post : List Label}
    (h : s.steps c faults cwd package (pre ++ post) = some s') :
    ∃ mid, s.steps c faults cwd package pre = some mid ∧
      mid.steps c faults cwd package post = some s' := by
  induction pre generalizing s with
  | nil => exact ⟨s, rfl, h⟩
  | cons a rest ih =>
    obtain ⟨first, hfirst, hrest⟩ := Option.bind_eq_some_iff.mp h
    obtain ⟨mid, hmid, hpost⟩ := ih hrest
    exact ⟨mid, Option.bind_eq_some_iff.mpr ⟨first, hfirst, hmid⟩, hpost⟩

theorem State.steps_concat {mid : State} (h : s.steps c faults cwd package labels = some mid)
    (ha : mid.step c faults cwd package a = some s') :
    s.steps c faults cwd package (labels ++ [a]) = some s' := by
  induction labels generalizing s with
  | nil =>
    cases h
    rw [List.nil_append, State.steps, ha]
    rfl
  | cons b rest ih =>
    obtain ⟨next, hnext, hrest⟩ := Option.bind_eq_some_iff.mp h
    exact Option.bind_eq_some_iff.mpr ⟨next, hnext, ih hrest⟩

theorem rank_of_set {jobs : List Job} {k : Nat} {old new job : Job} (hk : jobs[k]? = some old)
    (hle : old.phase.rank ≤ new.phase.rank) (hjob : jobs[i]? = some job) :
    ∃ job', (jobs.set k new)[i]? = some job' ∧ job.phase.rank ≤ job'.phase.rank := by
  rw [getElem?_set_of_some hk]
  by_cases hik : i = k
  · subst hik
    rw [hk] at hjob
    cases hjob
    exact ⟨new, if_pos rfl, hle⟩
  · exact ⟨job, by rw [if_neg hik]; exact hjob, Nat.le_refl _⟩

theorem Step.rank (hstep : Step c faults cwd package s a s') {job : Job}
    (hjob : s.jobs[i]? = some job) :
    ∃ job', s'.jobs[i]? = some job' ∧ job.phase.rank ≤ job'.phase.rank := by
  cases hstep with
  | launch hloop hfree hk => exact rank_of_set hk (Nat.zero_le _) hjob
  | act hk hact => exact rank_of_set hk (Phase.act_advances hact).rank hjob
  | _ => exact ⟨job, hjob, Nat.le_refl _⟩

theorem State.steps_rank (h : s.steps c faults cwd package labels = some s') {job : Job}
    (hjob : s.jobs[i]? = some job) :
    ∃ job', s'.jobs[i]? = some job' ∧ job.phase.rank ≤ job'.phase.rank := by
  refine State.steps_induction
    (P := fun s' => ∃ job', s'.jobs[i]? = some job' ∧ job.phase.rank ≤ job'.phase.rank)
    ?_ ⟨job, hjob, Nat.le_refl _⟩ h
  rintro s s' a ⟨mid, hmid, hle⟩ hstep
  obtain ⟨job', hjob', hle'⟩ := hstep.rank hmid
  exact ⟨job', hjob', Nat.le_trans hle hle'⟩

/-- Nothing is done to a file that is done with. -/
theorem State.steps_of_done (h : s.steps c faults cwd package labels = some s') {job : Job}
    (hjob : s.jobs[i]? = some job) (hrank : job.phase.rank = 4) (action : Action) :
    .act i action ∉ labels := by
  induction labels generalizing s job with
  | nil => simp
  | cons a rest ih =>
    obtain ⟨mid, hmid, hrest⟩ := Option.bind_eq_some_iff.mp h
    have hstep := State.step_eq_some hmid
    have hfirst : a ≠ .act i action := by
      rintro rfl
      cases hstep with
      | act hk hact =>
        rw [hjob] at hk
        cases hk
        exact Phase.rank_of_running (Phase.act_advances hact).running hrank
    obtain ⟨job', hjob', hle⟩ := hstep.rank hjob
    have hdone : job'.phase.rank = 4 := Nat.le_antisymm job'.phase.rank_le (hrank ▸ hle)
    intro hmem
    rcases List.mem_cons.mp hmem with heq | hmem
    · exact hfirst heq.symm
    · exact ih hrest hjob' hdone hmem

theorem State.steps_of_act (h : s.steps c faults cwd package labels = some s') {action : Action}
    (hne : action ≠ .check) (hmem : .act i action ∈ labels) :
    ∃ job', s'.jobs[i]? = some job' ∧ 3 ≤ job'.phase.rank := by
  obtain ⟨pre, post, rfl⟩ := List.append_of_mem hmem
  obtain ⟨mid, -, hrest⟩ := State.steps_append h
  obtain ⟨next, hnext, hpost⟩ := Option.bind_eq_some_iff.mp hrest
  cases State.step_eq_some hnext with
  | @act _ _ path phase phase' tree hk hact =>
    have hset : (mid.jobs.set i ⟨path, phase'⟩)[i]? = some ⟨path, phase'⟩ := by
      rw [getElem?_set_of_some hk, if_pos rfl]
    obtain ⟨job', hjob', hle⟩ := State.steps_rank hpost hset
    exact ⟨job', hjob', Nat.le_trans ((Phase.act_advances hact).other hne).2.1 hle⟩

/-- A file that is looked at after the call was cancelled is neither read nor written. -/
theorem State.steps_of_check {pre post : List Label}
    (h : s.steps c faults cwd package (pre ++ .act i .check :: post) = some s')
    (hcancel : .cancel ∈ pre) {action : Action}
    (hmem : .act i action ∈ pre ++ .act i .check :: post) : action = .check := by
  obtain ⟨mid, hpre, hrest⟩ := State.steps_append h
  obtain ⟨next, hnext, hpost⟩ := Option.bind_eq_some_iff.mp hrest
  have hcancelled : mid.cancelled = true := (State.steps_cancelled_iff hpre).mpr (.inr hcancel)
  by_contra hne
  cases State.step_eq_some hnext with
  | @act _ _ path phase phase' tree hk hact =>
    have hadv := Phase.act_advances hact
    have hstarted := hadv.check rfl
    have hdropped := (hadv.kept rfl).mpr hcancelled
    rcases List.mem_append.mp hmem with hbefore | hafter
    · obtain ⟨job', hjob', hrank⟩ := State.steps_of_act hpre hne hbefore
      rw [hk] at hjob'
      cases hjob'
      rw [hstarted] at hrank
      simp [Phase.rank] at hrank
    · rcases List.mem_cons.mp hafter with heq | hafter
      · cases heq
        exact hne rfl
      · have hset : (mid.jobs.set i ⟨path, phase'⟩)[i]? = some ⟨path, phase'⟩ := by
          rw [getElem?_set_of_some hk, if_pos rfl]
        exact State.steps_of_done hpost hset (by rw [hdropped]; rfl) action hafter

end Cancelling

end AbsoluteImports.Conversion
