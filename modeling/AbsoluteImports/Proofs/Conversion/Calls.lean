import AbsoluteImports.Proofs.Conversion.Moves
import AbsoluteImports.Proofs.Conversion.Schedules

/-!
# What a call returns

`Called` is what a call can do: it converts one file after the other, or its workers take their
steps in some order. A call that is not cancelled and comes to no files says why (`Run.Stopped`);
else it is done with all of them (`Run.Finished`), so that no proof about such calls has to look at
schedules.
-/

namespace AbsoluteImports.Conversion

variable {c : Converter} {faults : Faults} {cwd : Location} {t : FileTree} {dir : Text}
  {files : List Text} {results : List Result} {r : Run} {e : Option Error} {cancellable : Bool}

/-- A call: the run that converts one file after the other, or moves that follow each other in any
order until the call returns. One that is not cancellable is never cancelled. -/
inductive Called (c : Converter) (faults : Faults) (cwd : Location) (t : FileTree) (dir : Text)
    (cancellable : Bool) : Run → Prop
  | sequential (cancel : Cancellation) (h : cancel = .never ∨ cancellable = true) :
      Called c faults cwd t dir cancellable (run c cancel t cwd dir)
  | workers {ms : List Move} {k : Call}
      (hmoves : (Call.entering false).moves c faults cwd dir t ms = some k)
      (hreturned : k.returned = true) (h : .cancel ∉ ms ∨ cancellable = true)
      (events : List Event) :
      Called c faults cwd t dir cancellable (k.toRun c cwd dir t ms events)

/-- What the moves of a call that returned led to: workers that have returned, or an end before any
file was opened. -/
inductive Call.Outcome (c : Converter) (faults : Faults) (cwd : Location) (t : FileTree)
    (dir : Text) (ms : List Move) : Call → Prop
  | stopped {k : Call} (e : Option Error) (hout : outset c t cwd dir = .error e)
      (hstop : ∀ events, (k.toRun c cwd dir t ms events).Stopped c t dir e) :
      Call.Outcome c faults cwd t dir ms k
  | lost (hlate : VisitedLate ms) :
      Call.Outcome c faults cwd t dir ms (.failed (.listing (.cancelled dir)))
  | worked {files : List Text} {labels : List Label} {s : State}
      (hout : outset c t cwd dir = .ok files)
      (hsteps : (State.start t files).steps c faults cwd (Package.name cwd dir) labels = some s)
      (hreturned : s.loop = .returned) (hlabels : ∀ a, a ∈ labels ↔ .step a ∈ ms)
      (htime : ¬VisitedLate ms) : Call.Outcome c faults cwd t dir ms (.converting s)

theorem Call.moves_outcome {ms : List Move} {k : Call}
    (hmoves : (Call.entering false).moves c faults cwd dir t ms = some k)
    (hreturned : k.returned = true) : k.Outcome c faults cwd t dir ms := by
  have htraced := Call.moves_traced hmoves
  cases k with
  | entering cancelled => cases hreturned
  | scanning cancelled left kept => cases hreturned
  | skipped => exact .stopped none htraced fun _ => ⟨rfl, rfl, rfl, rfl, rfl⟩
  | failed e =>
    rcases htraced with ⟨rfl, hlate⟩ | ⟨-, hout⟩
    · exact .lost hlate
    · exact .stopped (some e) hout fun _ => ⟨rfl, rfl, rfl, rfl, rfl⟩
  | converting s =>
    obtain ⟨htime, files, labels, hout, hsteps, hlabels⟩ := htraced
    exact .worked hout hsteps (by simpa [Call.returned] using hreturned) hlabels htime

/-! ### Calls that are not cancelled -/

/-- A call that came to the files is done with them. -/
structure Run.Finished (c : Converter) (cwd : Location) (t : FileTree) (dir : Text)
    (files : List Text) (results : List Result) (r : Run) : Prop where
  error : r.error = none
  summary : r.summary = some ⟨dir, Package.name cwd dir, false, c.dryRun, results⟩
  done : Done c (Package.name cwd dir) cwd t files results r.tree

theorem Called.stopped (h : Called c faults cwd t dir false r)
    (ho : outset c t cwd dir = .error e) : r.Stopped c t dir e := by
  cases h with
  | sequential cancel hnever =>
    obtain rfl : cancel = .never := hnever.resolve_right Bool.false_ne_true
    exact run_stopped ho
  | workers hmoves hreturned hnever events =>
    cases Call.moves_outcome hmoves hreturned with
    | stopped e' hout hstop =>
      rw [hout] at ho
      cases ho
      exact hstop events
    | lost hlate => exact absurd hlate.cancelled (hnever.resolve_right Bool.false_ne_true)
    | worked hout =>
      rw [hout] at ho
      cases ho

theorem Reaches.finished (h : Reaches c t cwd dir files) (hnames : t.ProperNames)
    (hlinks : t.LinkFree) (hfiles : c.files = .faulty faults cwd) :
    (run c .never t cwd dir).Finished c cwd t dir files
      ((convertFiles c (Package.name cwd dir) .never 0 t files).1.map (·.result)) := by
  obtain ⟨hsummary, herror, htree, -⟩ := h.run_eq
  refine ⟨herror, hsummary, ?_⟩
  rw [htree]
  exact h.done hnames hlinks hfiles (Package.name cwd dir)

theorem Called.finished (h : Called c faults cwd t dir false r) (hnames : t.ProperNames)
    (hlinks : t.LinkFree) (hfiles : c.files = .faulty faults cwd)
    (ho : outset c t cwd dir = .ok files) : ∃ results, r.Finished c cwd t dir files results := by
  cases h with
  | sequential cancel hnever =>
    obtain rfl : cancel = .never := hnever.resolve_right Bool.false_ne_true
    exact ⟨_, (reaches_of_outset ho).finished hnames hlinks hfiles⟩
  | @workers ms k hmoves hreturned hnever events =>
    have hms : .cancel ∉ ms := hnever.resolve_right Bool.false_ne_true
    cases Call.moves_outcome hmoves hreturned with
    | stopped e' hout _ =>
      rw [hout] at ho
      cases ho
    | lost hlate => exact absurd hlate.cancelled hms
    | @worked files' labels s hout hsteps hloop hlabels =>
      rw [hout] at ho
      cases ho
      have hcancel : .cancel ∉ labels := fun hmem => hms ((hlabels .cancel).mp hmem)
      refine ⟨resultsOf s.jobs, ?_, rfl, ?_⟩
      · simp [Call.toRun, State.error, State.not_cancelled hsteps hcancel]
      · exact State.done hnames hlinks hfiles (reaches_of_outset hout) hsteps hloop hcancel

theorem alone_path (hfiles : c.files = .faulty faults cwd) (package : Text) (t : FileTree)
    (path : Text) : (alone c package t path).path = path :=
  (convertFile_converts (hfiles ▸ FileAccess.plainOrFails_faulty faults cwd) package t
    path).path_eq

theorem Run.Finished.length (h : r.Finished c cwd t dir files results) :
    results.length = files.length := by
  rw [h.done.each, List.length_map]

theorem Run.Finished.paths (h : r.Finished c cwd t dir files results)
    (hfiles : c.files = .faulty faults cwd) : results.map (·.path) = files := by
  have hsame : files.map (fun path => (alone c (Package.name cwd dir) t path).path) = files := by
    conv => rhs; rw [← List.map_id files]
    exact List.map_congr_left fun path _ => alone_path hfiles _ t path
  rw [h.done.each, List.map_map]
  exact hsame

theorem Run.Finished.result_eq (h : r.Finished c cwd t dir files results) {i : Nat} {x : Result}
    {path : Text} (hx : results[i]? = some x) (hpath : files[i]? = some path) :
    x = alone c (Package.name cwd dir) t path := by
  rw [h.done.each, List.getElem?_map, hpath, Option.map_some, Option.some.injEq] at hx
  exact hx.symm

/-! ### A call over two files -/

/-- The call is cancelled when two files are with a worker. -/
def workMoves : List Move :=
  [.enter, .visit, .visit, .visit, .walked] ++ cancelledSchedule.map .step

end AbsoluteImports.Conversion
