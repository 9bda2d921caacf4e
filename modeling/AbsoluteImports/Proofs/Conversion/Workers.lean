import AbsoluteImports.Proofs.Conversion.Independence
import AbsoluteImports.Proofs.SourceFile.Writing

/-!
# Files converted side by side

The files of a scan are handed out in order, as long as the call is not cancelled and a worker is
free. A file that was handed out is given up if the call is cancelled by then; else it is read and
written step by step, while other files are in work. The call returns when no file is in work.

`State.step` makes one step of such a call. What a step can do is said once, in `Step`. The
invariant `State.Sound` ties every state to the first tree: each file is where it would be alone,
and the tree is the first one with the files that were put over it.
-/

namespace AbsoluteImports

namespace Conversion

/-! ### Steps -/

/-- Where a file is on its way. -/
inductive Phase where
  | waiting
  /-- Handed out; whether the call is cancelled is looked at next. -/
  | started
  | reading
  | writing (changes : List Change) (content : Bytes) (stage : SourceFile.Stage)
  | finished (r : Result)
  /-- Given up before it was read. -/
  | dropped

def Phase.running : Phase → Bool
  | started | reading | writing .. => true
  | waiting | finished _ | dropped => false

/-- What happens next to a file that is with a worker. -/
inductive Action where
  | check
  | read
  | write (choice : SourceFile.Choice)
  deriving DecidableEq, Repr

/-- A file that was read, or not. -/
def Phase.opened (c : Converter) (package path : Text) : Except SourceFile.Error Document → Phase
  | .error e => .finished ⟨path, .failed, [], some e⟩
  | .ok d =>
    let changes := Change.list package d.lines
    if changes.isEmpty then .finished ⟨path, .unchanged, [], none⟩
    else if c.dryRun then .finished ⟨path, .updated, changes, none⟩
    else .writing changes (convertedDocument package d).content .checking

def Phase.written (path : Text) (changes : List Change) (content : Bytes) :
    SourceFile.Stage → Phase
  | .ended (.ok _) => .finished ⟨path, .updated, changes, none⟩
  | .ended (.error e) => .finished ⟨path, .failed, [], some e⟩
  | stage => .writing changes content stage

def Phase.act (c : Converter) (faults : Faults) (cwd : Location) (package : Text)
    (cancelled : Bool) (t : FileTree) (path : Text) : Phase → Action → Option (Phase × FileTree)
  | .started, .check => some (if cancelled then .dropped else .reading, t)
  | .reading, .read => some (.opened c package path (c.files.read t path), t)
  | .writing changes content stage, .write choice =>
    (stage.next (faults.write path) (faults.tag path) cwd path content t choice).map
      fun (stage', t') => (.written path changes content stage', t')
  | _, _ => none

/-- A file of the scan. -/
structure Job where
  path : Text
  phase : Phase

/-- Where the loop over the files is. -/
inductive Loop where
  /-- Before the file of an index: is the call cancelled? -/
  | looking (i : Nat)
  /-- The file of an index is handed out as soon as a worker is free. -/
  | launching (i : Nat)
  /-- No file is handed out any more. -/
  | joining
  | returned
  deriving DecidableEq, Repr

/-- A call in the middle of its files. -/
structure State where
  tree : FileTree
  jobs : List Job
  loop : Loop
  cancelled : Bool

/-- What can happen next. -/
inductive Label where
  | look
  | launch
  | act (i : Nat) (action : Action)
  | cancel
  | finish
  deriving DecidableEq, Repr

def resultsOf (jobs : List Job) : List Result :=
  jobs.filterMap fun job =>
    match job.phase with
    | .finished r => some r
    | _ => none

namespace State

def running (s : State) : Nat := (s.jobs.filter (·.phase.running)).length

def step (c : Converter) (faults : Faults) (cwd : Location) (package : Text) (s : State) :
    Label → Option State
  | .look =>
    match s.loop with
    | .looking i =>
      if s.jobs.length ≤ i ∨ s.cancelled = true then some { s with loop := .joining }
      else some { s with loop := .launching i }
    | _ => none
  | .launch =>
    match s.loop with
    | .launching i =>
      if s.running < c.workers then
        match s.jobs[i]? with
        | some ⟨path, .waiting⟩ =>
          some { s with jobs := s.jobs.set i ⟨path, .started⟩, loop := .looking (i + 1) }
        | _ => none
      else none
    | _ => none
  | .act i action =>
    match s.jobs[i]? with
    | some ⟨path, phase⟩ =>
      (phase.act c faults cwd package s.cancelled s.tree path action).map fun (phase', tree) =>
        { s with tree := tree, jobs := s.jobs.set i ⟨path, phase'⟩ }
    | none => none
  | .cancel => if s.loop = .returned then none else some { s with cancelled := true }
  | .finish =>
    if s.loop = .joining ∧ s.running = 0 then some { s with loop := .returned } else none

def steps (c : Converter) (faults : Faults) (cwd : Location) (package : Text) :
    State → List Label → Option State
  | s, [] => some s
  | s, a :: rest =>
    (s.step c faults cwd package a).bind fun s' => steps c faults cwd package s' rest

def start (t : FileTree) (files : List Text) : State :=
  ⟨t, files.map fun path => ⟨path, .waiting⟩, .looking 0, false⟩

def summary (c : Converter) (package dir : Text) (s : State) : Summary :=
  ⟨dir, package, false, c.dryRun, resultsOf s.jobs⟩

def error (dir : Text) (s : State) : Option Error :=
  if s.cancelled then some (.cancelled dir) else none

end State

/-! ### What a step can do -/

section Steps

variable {c : Converter} {faults : Faults} {cwd : Location} {package : Text}

inductive Phase.Acts (c : Converter) (faults : Faults) (cwd : Location) (package : Text)
    (cancelled : Bool) (t : FileTree) (path : Text) : Phase → Action → Phase → FileTree → Prop
  | check : Phase.Acts c faults cwd package cancelled t path .started .check
      (if cancelled then .dropped else .reading) t
  | read : Phase.Acts c faults cwd package cancelled t path .reading .read
      (.opened c package path (c.files.read t path)) t
  | write {changes : List Change} {content : Bytes} {stage stage' : SourceFile.Stage}
      {choice : SourceFile.Choice} {t' : FileTree}
      (hnext : stage.next (faults.write path) (faults.tag path) cwd path content t choice =
        some (stage', t')) :
      Phase.Acts c faults cwd package cancelled t path (.writing changes content stage)
        (.write choice) (.written path changes content stage') t'

theorem Phase.act_eq_some {cancelled : Bool} {t t' : FileTree} {path : Text}
    {phase phase' : Phase} {action : Action}
    (h : phase.act c faults cwd package cancelled t path action = some (phase', t')) :
    phase.Acts c faults cwd package cancelled t path action phase' t' := by
  unfold Phase.act at h
  split at h
  · cases h
    exact .check
  · cases h
    exact .read
  · obtain ⟨⟨stage', tree⟩, hnext, hphase⟩ := Option.map_eq_some_iff.mp h
    cases hphase
    exact .write hnext
  · cases h

inductive Step (c : Converter) (faults : Faults) (cwd : Location) (package : Text) :
    State → Label → State → Prop
  | stop {s : State} {i : Nat} (hloop : s.loop = .looking i)
      (h : s.jobs.length ≤ i ∨ s.cancelled = true) :
      Step c faults cwd package s .look { s with loop := .joining }
  | look {s : State} {i : Nat} (hloop : s.loop = .looking i) (hc : s.cancelled = false) :
      Step c faults cwd package s .look { s with loop := .launching i }
  | launch {s : State} {i : Nat} {path : Text} (hloop : s.loop = .launching i)
      (hfree : s.running < c.workers) (hjob : s.jobs[i]? = some ⟨path, .waiting⟩) :
      Step c faults cwd package s .launch
        { s with jobs := s.jobs.set i ⟨path, .started⟩, loop := .looking (i + 1) }
  | act {s : State} {i : Nat} {action : Action} {path : Text} {phase phase' : Phase}
      {tree : FileTree} (hjob : s.jobs[i]? = some ⟨path, phase⟩)
      (hact : phase.act c faults cwd package s.cancelled s.tree path action =
        some (phase', tree)) :
      Step c faults cwd package s (.act i action)
        { s with tree := tree, jobs := s.jobs.set i ⟨path, phase'⟩ }
  | cancel {s : State} (hloop : s.loop ≠ .returned) :
      Step c faults cwd package s .cancel { s with cancelled := true }
  | finish {s : State} (hloop : s.loop = .joining) (hidle : s.running = 0) :
      Step c faults cwd package s .finish { s with loop := .returned }

theorem State.step_look {s s' : State} (h : s.step c faults cwd package .look = some s') :
    Step c faults cwd package s .look s' := by
  simp only [State.step] at h
  split at h
  · rename_i i hloop
    split at h
    · rename_i hstop
      cases h
      exact .stop hloop hstop
    · rename_i hgo
      cases h
      exact .look hloop (by simpa using (not_or.mp hgo).2)
  · cases h

theorem State.step_launch {s s' : State} (h : s.step c faults cwd package .launch = some s') :
    Step c faults cwd package s .launch s' := by
  simp only [State.step] at h
  split at h
  · rename_i i hloop
    split at h
    · rename_i hfree
      split at h
      · rename_i path hjob
        cases h
        exact .launch hloop hfree hjob
      · cases h
    · cases h
  · cases h

theorem State.step_eq_some {s s' : State} {a : Label}
    (h : s.step c faults cwd package a = some s') : Step c faults cwd package s a s' := by
  cases a with
  | look => exact State.step_look h
  | launch => exact State.step_launch h
  | act i action =>
    simp only [State.step] at h
    split at h
    · rename_i path phase hjob
      obtain ⟨⟨phase', tree⟩, hact, hs⟩ := Option.map_eq_some_iff.mp h
      cases hs
      exact .act hjob hact
    · cases h
  | cancel =>
    simp only [State.step] at h
    split at h
    · cases h
    · rename_i hloop
      cases h
      exact .cancel hloop
  | finish =>
    simp only [State.step] at h
    split at h
    · rename_i hend
      cases h
      exact .finish hend.1 hend.2
    · cases h

/-- What holds of the first state and is kept by every step holds after any steps. -/
theorem State.steps_induction {P : State → Prop}
    (hstep : ∀ {s s' a}, P s → Step c faults cwd package s a s' → P s') {s s' : State}
    {labels : List Label} (hs : P s) (h : s.steps c faults cwd package labels = some s') :
    P s' := by
  induction labels generalizing s with
  | nil =>
    cases h
    exact hs
  | cons a rest ih =>
    obtain ⟨mid, hmid, hrest⟩ := Option.bind_eq_some_iff.mp h
    exact ih (hstep hs (State.step_eq_some hmid)) hrest

end Steps

/-! ### What holds of a file -/

section Files

variable {c : Converter} {faults : Faults} {cwd x : Location} {package path : Text}
  {t u u' : FileTree} {own : Nat → Location → Prop} {marks : Nat → Option (Location × Entry)}
  {i : Nat} {phase phase' : Phase} {cancelled : Bool} {action : Action}

/-- The document that is written over a file. -/
structure Rewrites (c : Converter) (package : Text) (t : FileTree) (path : Text)
    (changes : List Change) (content : Bytes) : Prop where
  dryRun : c.dryRun = false
  changed : changes ≠ []
  document : ∃ d, c.files.read t path = .ok d ∧ changes = Change.list package d.lines ∧
    content = (convertedDocument package d).content

/-- A file is in a phase, with a file of its own in the tree or none; `t` is the tree before
anything was written. A finished file has the result that it has alone. -/
def Phase.Sound (c : Converter) (faults : Faults) (cwd : Location) (package : Text) (t : FileTree)
    (path : Text) (mark : Option (Location × Entry)) : Phase → Prop
  | .waiting | .started | .reading | .dropped => mark = none
  | .writing changes content stage => Rewrites c package t path changes content ∧
      stage.Sound (faults.write path) (faults.tag path) t cwd path content mark
  | .finished r => r = (convertFile c package t path).result ∧
      (mark = none ∧ (r.outcome = .updated → c.dryRun = true) ∨
        r.outcome = .updated ∧ ∃ l changes content mode,
          Rewrites c package t path changes content ∧ t.locate cwd path = .ok l ∧
          t.replacedMode cwd path = .ok mode ∧ mark = some (l, .file content mode))

theorem convertFile_of_written {changes : List Change} {content : Bytes}
    (hfiles : c.files = .faulty faults cwd) (h : Rewrites c package t path changes content)
    (hfault : faults.write path = none)
    (hok : (t.replaceFile cwd path content (faults.tag path)).1 = .ok ()) :
    (convertFile c package t path).result = ⟨path, .updated, changes, none⟩ := by
  obtain ⟨hdry, hne, d, hread, rfl, rfl⟩ := h
  have hwrite : ∃ left, c.files.write t path (convertedDocument package d) = (.ok (), left) := by
    obtain ⟨r, left, hr⟩ : ∃ r left, t.replaceFile cwd path
        (convertedDocument package d).content (faults.tag path) = (r, left) := ⟨_, _, rfl⟩
    rw [hr] at hok
    cases hok
    simp only [hfiles, FileAccess.faulty, hfault, SourceFile.write, hr]
    exact ⟨left, rfl⟩
  obtain ⟨left, hwrite⟩ := hwrite
  exact (Handles.written d left hread hne hdry hwrite).eq.1

theorem convertFile_of_refused {changes : List Change} {content : Bytes} {e : SourceFile.Error}
    (hfiles : c.files = .faulty faults cwd) (h : Rewrites c package t path changes content)
    (he : faults.write path = some e ∨ faults.write path = none ∧
      ∃ e', (t.replaceFile cwd path content (faults.tag path)).1 = .error e' ∧
        e = .writing path e') :
    (convertFile c package t path).result = ⟨path, .failed, [], some e⟩ := by
  obtain ⟨hdry, hne, d, hread, rfl, rfl⟩ := h
  have hwrite : ∃ left, c.files.write t path (convertedDocument package d) = (.error e, left) := by
    simp only [hfiles, FileAccess.faulty]
    rcases he with hfault | ⟨hfault, e', herror, rfl⟩
    · rw [hfault]
      exact ⟨t, rfl⟩
    · obtain ⟨r, left, hr⟩ : ∃ r left, t.replaceFile cwd path
          (convertedDocument package d).content (faults.tag path) = (r, left) := ⟨_, _, rfl⟩
      rw [hr] at herror
      cases herror
      simp only [hfault, SourceFile.write, hr]
      exact ⟨left, rfl⟩
  obtain ⟨left, hwrite⟩ := hwrite
  exact (Handles.refused d e left hread hne hdry hwrite).eq.1

theorem read_overlay (ht : t.LinkFree) (hown : FileTree.OwnFiles t own)
    (hfiles : c.files = .faulty faults cwd) (hp : Scan.Present t cwd path)
    (hi : ∀ l, t.locate cwd path = .ok l → own i l) (h : FileTree.Overlay t own marks u)
    (hm : marks i = none) : c.files.read u path = c.files.read t path := by
  have hcontent : u.readFile cwd path = t.readFile cwd path := by
    unfold FileTree.readFile
    rw [h.locate_eq ht hown hp]
    cases hl : t.locate cwd path with
    | error e => rfl
    | ok l =>
      have hsame := h.get?_own hown (hi l hl) fun e he => by
        rw [hm] at he
        cases he
      simp only [hsame]
  simp only [hfiles, FileAccess.faulty, SourceFile.read, hcontent]

theorem Phase.opened_sound (hread : c.files.read u path = c.files.read t path) :
    (Phase.opened c package path (c.files.read u path)).Sound c faults cwd package t path none := by
  rw [hread]
  cases hr : c.files.read t path with
  | error e =>
    refine ⟨?_, .inl ⟨rfl, fun hupdated => by cases hupdated⟩⟩
    rw [(Handles.unread e hr).eq.1]
  | ok d =>
    simp only [Phase.opened]
    split
    · rename_i hempty
      refine ⟨?_, .inl ⟨rfl, fun hupdated => by cases hupdated⟩⟩
      rw [(Handles.still d hr (List.isEmpty_iff.mp hempty)).eq.1]
    rename_i hne
    have hsome : Change.list package d.lines ≠ [] := by simpa using hne
    split
    · rename_i hdry
      refine ⟨?_, .inl ⟨rfl, fun _ => hdry⟩⟩
      rw [(Handles.reported d hr hsome hdry).eq.1]
    rename_i hdry
    exact ⟨⟨by simpa using hdry, hsome, d, hr, rfl, rfl⟩, rfl⟩

theorem Phase.written_sound (hfiles : c.files = .faulty faults cwd) {changes : List Change}
    {content : Bytes} {stage : SourceFile.Stage} {mark : Option (Location × Entry)}
    (h : Rewrites c package t path changes content)
    (hs : stage.Sound (faults.write path) (faults.tag path) t cwd path content mark) :
    (Phase.written path changes content stage).Sound c faults cwd package t path mark := by
  cases stage with
  | ended r =>
    cases r with
    | ok _ =>
      obtain ⟨hfault, hok, l, mode, hl, hmode, rfl⟩ := hs
      refine ⟨?_, .inr ⟨rfl, l, changes, content, mode, h, hl, hmode, rfl⟩⟩
      rw [convertFile_of_written hfiles h hfault hok]
    | error e =>
      obtain ⟨rfl, he⟩ := hs
      exact ⟨(convertFile_of_refused hfiles h he).symm,
        .inl ⟨rfl, fun hupdated => by cases hupdated⟩⟩
  | _ => exact ⟨h, hs⟩

/-- Every action on a file keeps what holds of it, whatever files the others have put over the
tree. -/
theorem Phase.act_sound (ht : t.LinkFree) (hown : FileTree.OwnFiles t own)
    (hfiles : c.files = .faulty faults cwd) (hp : Scan.Present t cwd path)
    (hi : ∀ l, t.locate cwd path = .ok l → own i l) (h : FileTree.Overlay t own marks u)
    (hs : phase.Sound c faults cwd package t path (marks i))
    (hact : phase.act c faults cwd package cancelled u path action = some (phase', u')) :
    ∃ mark, phase'.Sound c faults cwd package t path mark ∧
      FileTree.Overlay t own (Function.update marks i mark) u' := by
  cases Phase.act_eq_some hact with
  | check =>
    have hmark : marks i = none := hs
    refine ⟨none, ?_, hmark ▸ h.keep i⟩
    split
    · rfl
    · rfl
  | read =>
    have hmark : marks i = none := hs
    exact ⟨none, Phase.opened_sound (read_overlay ht hown hfiles hp hi h hmark),
      hmark ▸ h.keep i⟩
  | write hnext =>
    obtain ⟨hrewrites, hstage⟩ := hs
    obtain ⟨d, hread, -, -⟩ := hrewrites.document
    -- a file that was read is where its path leads
    have hplain : SourceFile.read t cwd path = .ok d := by
      rcases (hfiles ▸ FileAccess.plainOrFails_faulty faults cwd).read t path with hp' | ⟨e, he⟩
      · rw [← hp', hread]
      · rw [he] at hread
        cases hread
    obtain ⟨old, _, _, hcontent, -, -⟩ := SourceFile.read_eq_ok hplain
    obtain ⟨l, mode, hl, -⟩ := FileTree.readFile_eq_ok.mp hcontent
    obtain ⟨mark, hsound, hoverlay⟩ :=
      SourceFile.Stage.next_sound ht hown hp hl (hi l hl) h hstage hnext
    exact ⟨mark, Phase.written_sound hfiles hrewrites hsound, hoverlay⟩

end Files

/-! ### What holds of a call -/

section Calls

variable {c : Converter} {faults : Faults} {cwd : Location} {package : Text} {t : FileTree}
  {files : List Text} {s s' : State} {a : Label}

/-- The place of the file with an index. -/
def Owns (t : FileTree) (cwd : Location) (files : List Text) (i : Nat) (l : Location) : Prop :=
  ∃ path, files[i]? = some path ∧ t.locate cwd path = .ok l

theorem ownFiles (hapart : Scan.Apart t cwd files)
    (hpresent : ∀ path ∈ files, Scan.Present t cwd path) :
    FileTree.OwnFiles t (Owns t cwd files) := by
  have hordered : ∀ {i j l}, i < j → Owns t cwd files i l → ¬Owns t cwd files j l := by
    rintro i j l hij ⟨p, hp, hl⟩ ⟨q, hq, hl'⟩
    obtain ⟨hi, rfl⟩ := List.getElem?_eq_some_iff.mp hp
    obtain ⟨hj, rfl⟩ := List.getElem?_eq_some_iff.mp hq
    exact List.pairwise_iff_getElem.mp hapart i j hi hj hij l hl hl'
  constructor
  · rintro i l ⟨path, hpath, hl⟩
    exact (hpresent path (List.mem_of_getElem? hpath)).file l hl
  · intro i j l hi hj
    rcases Nat.lt_trichotomy i j with hij | hij | hij
    · exact absurd hj (hordered hij hi)
    · exact hij
    · exact absurd hi (hordered hij hj)

/-- Every file of a call is where it would be alone, and the tree is the first one with the files
of these put over it. -/
structure State.Sound (c : Converter) (faults : Faults) (cwd : Location) (package : Text)
    (t : FileTree) (files : List Text) (s : State) : Prop where
  paths : s.jobs.map (·.path) = files
  overlay : ∃ marks, FileTree.Overlay t (Owns t cwd files) marks s.tree ∧
    (∀ i, s.jobs[i]? = none → marks i = none) ∧
    ∀ i (job : Job), s.jobs[i]? = some job →
      job.phase.Sound c faults cwd package t job.path (marks i)

theorem State.start_sound (c : Converter) (faults : Faults) (cwd : Location) (package : Text)
    (t : FileTree) (files : List Text) :
    (State.start t files).Sound c faults cwd package t files := by
  refine ⟨by simp [State.start, Function.comp_def], fun _ => none, .start t _, fun _ _ => rfl, ?_⟩
  intro i job hjob
  simp only [State.start, List.getElem?_map, Option.map_eq_some_iff] at hjob
  obtain ⟨path, -, rfl⟩ := hjob
  rfl

theorem map_path_set {jobs : List Job} {i : Nat} {path : Text} {phase : Phase}
    (h : jobs[i]? = some ⟨path, phase⟩) (phase' : Phase) :
    (jobs.set i ⟨path, phase'⟩).map (·.path) = jobs.map (·.path) := by
  have hpath : (jobs.map (·.path))[i]? = some path := by
    rw [List.getElem?_map, h]
    rfl
  obtain ⟨hlt, heq⟩ := List.getElem?_eq_some_iff.mp hpath
  have hsame := List.set_getElem_self hlt
  rw [heq] at hsame
  rw [List.map_set, hsame]

theorem State.Sound.set {path : Text} {phase phase' : Phase} {tree : FileTree} {i : Nat}
    (h : s.Sound c faults cwd package t files) (hjob : s.jobs[i]? = some ⟨path, phase⟩)
    (hnext : ∀ marks, FileTree.Overlay t (Owns t cwd files) marks s.tree →
      phase.Sound c faults cwd package t path (marks i) →
      ∃ mark, phase'.Sound c faults cwd package t path mark ∧
        FileTree.Overlay t (Owns t cwd files) (Function.update marks i mark) tree)
    (loop : Loop) (cancelled : Bool) :
    State.Sound c faults cwd package t files
      ⟨tree, s.jobs.set i ⟨path, phase'⟩, loop, cancelled⟩ := by
  obtain ⟨hpaths, marks, hoverlay, hnone, hsound⟩ := h
  obtain ⟨hi, hget⟩ := List.getElem?_eq_some_iff.mp hjob
  obtain ⟨mark, hphase, hoverlay'⟩ := hnext marks hoverlay (hsound i _ hjob)
  refine ⟨?_, Function.update marks i mark, hoverlay', ?_, ?_⟩
  · rw [map_path_set hjob, hpaths]
  · intro j hj
    have hji : j ≠ i := by
      rintro rfl
      simp [hi] at hj
    rw [Function.update_of_ne hji]
    refine hnone j ?_
    simpa [List.getElem?_set, Ne.symm hji] using hj
  · intro j job hj
    by_cases hji : j = i
    · subst hji
      simp only [List.getElem?_set_self hi, Option.some.injEq] at hj
      subst hj
      rw [Function.update_self]
      exact hphase
    · rw [List.getElem?_set_ne (Ne.symm hji)] at hj
      rw [Function.update_of_ne hji]
      exact hsound j job hj

/-- Every step keeps what holds of a call. -/
theorem State.Sound.next (ht : t.LinkFree) (hapart : Scan.Apart t cwd files)
    (hpresent : ∀ path ∈ files, Scan.Present t cwd path) (hfiles : c.files = .faulty faults cwd)
    (h : s.Sound c faults cwd package t files) (hstep : Step c faults cwd package s a s') :
    s'.Sound c faults cwd package t files := by
  cases hstep with
  | stop => exact ⟨h.paths, h.overlay⟩
  | look => exact ⟨h.paths, h.overlay⟩
  | cancel => exact ⟨h.paths, h.overlay⟩
  | finish => exact ⟨h.paths, h.overlay⟩
  | @launch i path hloop hfree hjob =>
    refine h.set hjob ?_ _ _
    intro marks hoverlay hmark
    have hnone : marks i = none := hmark
    exact ⟨none, rfl, hnone ▸ hoverlay.keep i⟩
  | @act i action path phase phase' tree hjob hact =>
    refine h.set hjob ?_ _ _
    intro marks hoverlay hphase
    have hpath : files[i]? = some path := by
      rw [← h.paths, List.getElem?_map, hjob]
      rfl
    exact Phase.act_sound ht (ownFiles hapart hpresent) hfiles
      (hpresent path (List.mem_of_getElem? hpath)) (fun l hl => ⟨path, hpath, hl⟩) hoverlay hphase
      hact

theorem State.steps_sound (ht : t.LinkFree) (hapart : Scan.Apart t cwd files)
    (hpresent : ∀ path ∈ files, Scan.Present t cwd path) (hfiles : c.files = .faulty faults cwd)
    {labels : List Label}
    (h : (State.start t files).steps c faults cwd package labels = some s) :
    s.Sound c faults cwd package t files :=
  State.steps_induction (fun hs hstep => hs.next ht hapart hpresent hfiles hstep)
    (State.start_sound c faults cwd package t files) h

end Calls

end Conversion

end AbsoluteImports
