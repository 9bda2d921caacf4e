import AbsoluteImports.Proofs.Conversion.Schedules

/-!
# Results that agree with themselves

A result says three things about its file: what became of it, which lines were changed and why it
failed. They fit together in every result that a conversion gives, whatever the store of files does,
however the steps of the workers follow each other and wherever the call is cancelled.
-/

namespace AbsoluteImports

/-- The parts of a result fit together: it has an error exactly when the file failed, and changes
exactly when the file was updated. -/
structure Result.Consistent (r : Result) : Prop where
  known : r.outcome ≠ .unknown
  error : r.error ≠ none ↔ r.outcome = .failed
  changes : r.changes ≠ [] ↔ r.outcome = .updated

namespace Result

theorem consistent_failed (path : Text) (e : SourceFile.Error) :
    Consistent ⟨path, .failed, [], some e⟩ := by
  constructor
  all_goals simp

theorem consistent_unchanged (path : Text) : Consistent ⟨path, .unchanged, [], none⟩ := by
  constructor
  all_goals simp

theorem consistent_updated (path : Text) {changes : List Change} (h : changes ≠ []) :
    Consistent ⟨path, .updated, changes, none⟩ := by
  constructor
  all_goals simp [h]

end Result

namespace Conversion

variable {c : Converter} {package path dir : Text} {t : FileTree} {cwd : Location}

/-! ### One file after the other -/

theorem Handles.consistent {left : FileTree} {r : Result} {wrote : Bool}
    (h : Handles c package t path r wrote left) : r.Consistent := by
  cases h with
  | unread e hread => exact Result.consistent_failed _ _
  | still d hread hnone => exact Result.consistent_unchanged _
  | reported d hread hsome hdry => exact Result.consistent_updated _ hsome
  | written d left hread hsome hdry hwrite => exact Result.consistent_updated _ hsome
  | refused d e left hread hsome hdry hwrite => exact Result.consistent_failed _ _

theorem convertFile_consistent (c : Converter) (package : Text) (t : FileTree) (path : Text) :
    (convertFile c package t path).result.Consistent :=
  (convertFile_handles c package t path).consistent

theorem convertFiles_consistent {cancel : Cancellation} {paths : List Text} (reads : Nat) :
    ∀ r ∈ (convertFiles c package cancel reads t paths).1, r.result.Consistent := by
  induction paths generalizing reads t with
  | nil => simp [convertFiles]
  | cons path rest ih =>
    rw [convertFiles]
    split
    · simp
    · rw [List.forall_mem_cons]
      exact ⟨convertFile_consistent c package t path, ih (reads + 1)⟩

/-! ### Workers -/

section Workers

variable {faults : Faults} {files : List Text} {s s' : State} {a : Label}

/-- A file on its way to a consistent result: what is being written is never an unchanged file. -/
def Phase.Consistent : Phase → Prop
  | .writing changes _ _ => changes ≠ []
  | .finished r => r.Consistent
  | .waiting | .started | .reading | .dropped => True

theorem Phase.opened_consistent (c : Converter) (package path : Text)
    (read : Except SourceFile.Error Document) :
    (Phase.opened c package path read).Consistent := by
  cases read with
  | error e => exact Result.consistent_failed path e
  | ok d =>
    simp only [Phase.opened]
    split
    · exact Result.consistent_unchanged path
    rename_i hne
    have hchanges : Change.list package d.lines ≠ [] := by simpa using hne
    split
    · exact Result.consistent_updated path hchanges
    · exact hchanges

theorem Phase.written_consistent {changes : List Change} (h : changes ≠ []) (path : Text)
    (content : Bytes) (stage : SourceFile.Stage) :
    (Phase.written path changes content stage).Consistent := by
  unfold Phase.written
  split
  · exact Result.consistent_updated path h
  · exact Result.consistent_failed path _
  · exact h

theorem Phase.act_consistent {cancelled : Bool} {t' : FileTree} {phase phase' : Phase}
    {action : Action} (h : phase.Consistent)
    (hact : phase.act c faults cwd package cancelled t path action = some (phase', t')) :
    phase'.Consistent := by
  cases Phase.act_eq_some hact with
  | check =>
    split
    · trivial
    · trivial
  | read => exact Phase.opened_consistent c package path _
  | write => exact Phase.written_consistent h path _ _

def State.Consistent (s : State) : Prop := ∀ job ∈ s.jobs, job.phase.Consistent

theorem State.Consistent.next (h : s.Consistent) (hstep : Step c faults cwd package s a s') :
    s'.Consistent := by
  cases hstep with
  | launch hloop hfree hjob =>
    intro job hmem
    rcases List.mem_or_eq_of_mem_set hmem with hmem | rfl
    · exact h job hmem
    · trivial
  | act hjob hact =>
    intro job hmem
    rcases List.mem_or_eq_of_mem_set hmem with hmem | rfl
    · exact h job hmem
    · exact Phase.act_consistent (h _ (List.mem_of_getElem? hjob)) hact
  | _ => exact h

theorem State.steps_consistent {labels : List Label}
    (hsteps : (State.start t files).steps c faults cwd package labels = some s) :
    ∀ r ∈ resultsOf s.jobs, r.Consistent := by
  have hstart : (State.start t files).Consistent := by
    intro job hjob
    obtain ⟨path, -, rfl⟩ := List.mem_map.mp hjob
    trivial
  have hall := State.steps_induction (fun h hstep => State.Consistent.next h hstep) hstart hsteps
  intro r hr
  obtain ⟨job, hjob, hfinished⟩ := mem_resultsOf.mp hr
  have hphase := hall job hjob
  rw [hfinished] at hphase
  exact hphase

end Workers

/-! ### Calls -/

theorem run_consistent (c : Converter) (cancel : Cancellation) (t : FileTree) (cwd : Location)
    (dir : Text) :
    ∀ summary ∈ (run c cancel t cwd dir).summary,
      (∀ r ∈ summary.results, r.Consistent) ∧ (summary.skipped = true → summary.results = []) := by
  unfold run
  split
  · simp [Run.ended]
  split
  · simp [Run.ended]
  · simp [Run.ended]
  simp only
  split
  · simp [Run.ended]
  · intro summary hsummary
    cases hsummary
    refine ⟨fun r hr => ?_, by simp⟩
    obtain ⟨x, hx, rfl⟩ := List.mem_map.mp hr
    exact convertFiles_consistent 0 x hx

end Conversion

end AbsoluteImports
