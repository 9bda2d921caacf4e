import AbsoluteImports.Proofs.Conversion.Order
import AbsoluteImports.Proofs.Scan.Exclusion

/-!
# Calls, move by move

A call looks at the directory, at its marker and at the patterns, goes through the files that the
walk finds, and hands those that it keeps to its workers. Its moves are these steps and those of the
workers, and it can be cancelled between any two of them.

`outset` is what a call learns before it opens a file: two calls that learn the same come equally
far. `Call.moves_traced` ties a call to the moves that led to it, so that a call that came to its
files is one of workers that make the same steps.
-/

namespace AbsoluteImports.Conversion

variable {c : Converter} {faults : Faults} {cwd : Location} {t : FileTree} {dir : Text}
  {files : List Text} {r : Run} {e : Option Error}

/-! ### Before the files -/

/-- The files that a call comes to, or the error that ends it before; a directory that is no
package ends it without one. -/
def outset (c : Converter) (t : FileTree) (cwd : Location) (dir : Text) :
    Except (Option Error) (List Text) :=
  match Package.validateDirectory t cwd dir with
  | .error e => .error (some (.directory e))
  | .ok () =>
    match Package.isRoot c.files t dir with
    | .error e => .error (some (.marker dir e))
    | .ok false => .error none
    | .ok true =>
      match (Scan.pythonFiles t cwd dir c.exclude false).1 with
      | .error e => .error (some (.listing e))
      | .ok files => .ok files

theorem reaches_of_outset (h : outset c t cwd dir = .ok files) : Reaches c t cwd dir files := by
  unfold outset at h
  split at h
  · cases h
  rename_i hvalid
  split at h
  · cases h
  · cases h
  rename_i hroot
  split at h
  · cases h
  rename_i hscan
  cases h
  refine ⟨hvalid, hroot, (Scan.pythonFiles t cwd dir c.exclude false).2, ?_⟩
  rw [← hscan]

theorem Reaches.outset_eq (h : Reaches c t cwd dir files) : outset c t cwd dir = .ok files := by
  obtain ⟨hvalid, hroot, events, hscan⟩ := h
  simp only [outset, hvalid, hroot, hscan]

theorem Reaches.unique {files' : List Text} (h : Reaches c t cwd dir files)
    (h' : Reaches c t cwd dir files') : files = files' :=
  Except.ok.inj (h.outset_eq.symm.trans h'.outset_eq)

/-- A call that ended before it opened a file. -/
structure Run.Stopped (c : Converter) (t : FileTree) (dir : Text) (e : Option Error) (r : Run) :
    Prop where
  error : r.error = e
  summary : r.summary = if e = none then some ⟨dir, [], true, c.dryRun, []⟩ else none
  tree : r.tree = t
  reads : r.reads = []
  writes : r.writes = []

theorem Run.Stopped.results_eq (h : r.Stopped c t dir e) :
    ∀ summary ∈ r.summary, summary.results = [] := by
  intro summary hsummary
  rw [h.summary] at hsummary
  split at hsummary
  · cases hsummary
    rfl
  · cases hsummary

theorem run_stopped (h : outset c t cwd dir = .error e) :
    (run c .never t cwd dir).Stopped c t dir e := by
  have hnever : ∀ n, Cancellation.never.seen n = false := fun _ => rfl
  unfold outset at h
  unfold run
  cases hvalid : Package.validateDirectory t cwd dir with
  | error e' =>
    rw [hvalid] at h
    cases h
    exact ⟨rfl, rfl, rfl, rfl, rfl⟩
  | ok _ =>
    rw [hvalid] at h
    cases hroot : Package.isRoot c.files t dir with
    | error e' =>
      simp only [hroot] at h
      cases h
      exact ⟨rfl, rfl, rfl, rfl, rfl⟩
    | ok root =>
      simp only [hroot] at h
      cases root with
      | false =>
        cases h
        exact ⟨rfl, rfl, rfl, rfl, rfl⟩
      | true =>
        obtain ⟨found, events, hscan⟩ : ∃ found events,
            Scan.pythonFiles t cwd dir c.exclude false = (found, events) := ⟨_, _, rfl⟩
        simp only [hscan] at h
        simp only [hnever, hscan]
        cases found with
        | error e' =>
          cases h
          exact ⟨rfl, rfl, rfl, rfl, rfl⟩
        | ok files => cases h

/-! ### Moves -/

def Error.isCancelled : Error → Bool
  | .listing (.cancelled _) | .cancelled _ => true
  | _ => false

/-- A call from its beginning to its end. -/
inductive Call where
  | entering (cancelled : Bool)
  /-- The files that the walk is still to visit, and those that were kept so far. -/
  | scanning (cancelled : Bool) (left kept : List Text)
  | converting (s : State)
  /-- Ended without a summary. -/
  | failed (e : Error)
  /-- Ended because the directory is no package. -/
  | skipped

/-- What can happen next to a call. -/
inductive Move where
  /-- The directory, its marker and the patterns are looked at. -/
  | enter
  | visit
  /-- The walk is over. -/
  | walked
  /-- A step of the workers, or the call is cancelled. -/
  | step (a : Label)
  deriving DecidableEq, Repr

abbrev Move.cancel : Move := .step .cancel

namespace Call

def entered (c : Converter) (t : FileTree) (cwd : Location) (dir : Text) (cancelled : Bool) :
    Call :=
  match Package.validateDirectory t cwd dir with
  | .error e => .failed (.directory e)
  | .ok () =>
    match Package.isRoot c.files t dir with
    | .error e => .failed (.marker dir e)
    | .ok false => .skipped
    | .ok true =>
      match Glob.validate c.exclude with
      | .error e => .failed (.listing (.badPattern e))
      | .ok () => .scanning cancelled (Scan.walkRoot t cwd dir).1 []

/-- One file of the walk: only here the scan looks whether the call is cancelled. -/
def visited (exclude : List Text) (dir path : Text) (cancelled : Bool) (left kept : List Text) :
    Call :=
  if cancelled then .failed (.listing (.cancelled dir))
  else
    match Scan.choose path exclude with
    | .malformed p => .failed (.listing (.matching dir p))
    | .excluded _ => .scanning cancelled left kept
    | .kept => .scanning cancelled left (kept ++ [Path.join dir path])

def move (c : Converter) (faults : Faults) (cwd : Location) (dir : Text) (t : FileTree) :
    Call → Move → Option Call
  | .entering cancelled, .enter => some (entered c t cwd dir cancelled)
  | .entering _, .step .cancel => some (.entering true)
  | .scanning cancelled (path :: left) kept, .visit =>
    some (visited c.exclude dir path cancelled left kept)
  | .scanning cancelled [] kept, .walked =>
    match (Scan.walkRoot t cwd dir).2 with
    | some e => some (.failed (.listing (.walking dir e)))
    | none => some (.converting { State.start t kept with cancelled := cancelled })
  | .scanning _ left kept, .step .cancel => some (.scanning true left kept)
  | .converting s, .step a => (s.step c faults cwd (Package.name cwd dir) a).map .converting
  | _, _ => none

def moves (c : Converter) (faults : Faults) (cwd : Location) (dir : Text) (t : FileTree) :
    Call → List Move → Option Call
  | k, [] => some k
  | k, m :: rest => (k.move c faults cwd dir t m).bind fun k' => moves c faults cwd dir t k' rest

def returned : Call → Bool
  | .entering _ | .scanning .. => false
  | .converting s => s.loop = .returned
  | .failed _ | .skipped => true

def summary (c : Converter) (cwd : Location) (dir : Text) : Call → Option Summary
  | .entering _ | .scanning .. | .failed _ => none
  | .converting s => some (s.summary c (Package.name cwd dir) dir)
  | .skipped => some ⟨dir, [], true, c.dryRun, []⟩

def error (dir : Text) : Call → Option Error
  | .entering _ | .scanning .. | .skipped => none
  | .converting s => s.error dir
  | .failed e => some e

end Call

/-- A file was visited by the scan after the call was cancelled. -/
def VisitedLate (moves : List Move) : Prop :=
  ∃ pre post, moves = pre ++ .visit :: post ∧ Move.cancel ∈ pre

theorem VisitedLate.cancelled {ms : List Move} (h : VisitedLate ms) : .cancel ∈ ms := by
  obtain ⟨pre, post, rfl, hpre⟩ := h
  exact List.mem_append_left _ hpre

def processed (moves : List Move) (files : List Text) : List Text :=
  (files.zipIdx.filter fun x => .step (.act x.2 .read) ∈ moves).map (·.1)

def Move.writes (i : Nat) : Move → Bool
  | .step (.act j (.write _)) => i == j
  | _ => false

def handedOver (moves : List Move) (files : List Text) : List Text :=
  (files.zipIdx.filter fun x => moves.any (Move.writes x.2)).map (·.1)

def Call.toRun (c : Converter) (cwd : Location) (dir : Text) (t : FileTree) (moves : List Move)
    (events : List Event) : Call → Run
  | .converting s =>
    ⟨some (s.summary c (Package.name cwd dir) dir), s.error dir, s.tree, events,
      processed moves (s.jobs.map (·.path)), handedOver moves (s.jobs.map (·.path))⟩
  | k => .ended t (k.summary c cwd dir) (k.error dir) events

/-! ### What a move can do -/

section Moves

variable {past : List Move} {k k' : Call} {m : Move} {cancelled : Bool}

inductive Moved (c : Converter) (faults : Faults) (cwd : Location) (dir : Text) (t : FileTree) :
    Call → Move → Call → Prop
  | enter {cancelled : Bool} : Moved c faults cwd dir t (.entering cancelled) .enter
      (.entered c t cwd dir cancelled)
  | warned {cancelled : Bool} : Moved c faults cwd dir t (.entering cancelled) .cancel
      (.entering true)
  | visit {cancelled : Bool} {path : Text} {left kept : List Text} :
      Moved c faults cwd dir t (.scanning cancelled (path :: left) kept) .visit
        (.visited c.exclude dir path cancelled left kept)
  | broken {cancelled : Bool} {kept : List Text} {e : Scan.WalkError}
      (h : (Scan.walkRoot t cwd dir).2 = some e) :
      Moved c faults cwd dir t (.scanning cancelled [] kept) .walked
        (.failed (.listing (.walking dir e)))
  | walked {cancelled : Bool} {kept : List Text} (h : (Scan.walkRoot t cwd dir).2 = none) :
      Moved c faults cwd dir t (.scanning cancelled [] kept) .walked
        (.converting { State.start t kept with cancelled := cancelled })
  | stopped {cancelled : Bool} {left kept : List Text} :
      Moved c faults cwd dir t (.scanning cancelled left kept) .cancel (.scanning true left kept)
  | step {s s' : State} {a : Label} (h : s.step c faults cwd (Package.name cwd dir) a = some s') :
      Moved c faults cwd dir t (.converting s) (.step a) (.converting s')

theorem Call.move_eq_some (h : k.move c faults cwd dir t m = some k') :
    Moved c faults cwd dir t k m k' := by
  unfold Call.move at h
  split at h
  · cases h
    exact .enter
  · cases h
    exact .warned
  · cases h
    exact .visit
  · split at h
    · cases h
      exact .broken ‹_›
    · cases h
      exact .walked ‹_›
  · cases h
    exact .stopped
  · obtain ⟨s', hs', rfl⟩ := Option.map_eq_some_iff.mp h
    exact .step hs'
  · cases h

/-! ### The moves that led to a call -/

theorem visitedLate_concat :
    VisitedLate (past ++ [m]) ↔ VisitedLate past ∨ m = .visit ∧ Move.cancel ∈ past := by
  constructor
  · rintro ⟨pre, post, heq, hmem⟩
    rcases List.eq_nil_or_concat post with rfl | ⟨post', m', rfl⟩
    · obtain ⟨rfl, hm⟩ := List.append_inj' heq rfl
      exact .inr ⟨List.singleton_inj.mp hm, hmem⟩
    · rw [List.concat_eq_append, ← List.cons_append, ← List.append_assoc] at heq
      exact .inl ⟨pre, post', (List.append_inj' heq rfl).1, hmem⟩
  · rintro (⟨pre, post, rfl, hmem⟩ | ⟨rfl, hmem⟩)
    · exact ⟨pre, post ++ [m], by simp, hmem⟩
    · exact ⟨past, [], rfl, hmem⟩

/-- The moves of a call before its files: a worker did nothing yet, and no file was visited after
the call was cancelled. -/
structure Unopened (past : List Move) (cancelled : Bool) : Prop where
  cancelled : cancelled = true ↔ Move.cancel ∈ past
  onTime : ¬VisitedLate past
  idle : ∀ a, .step a ∈ past → a = .cancel

theorem Unopened.next (h : Unopened past cancelled) (hm : ∀ a, m ≠ .step a)
    (hvisit : m = .visit → cancelled = false) : Unopened (past ++ [m]) cancelled := by
  refine ⟨?_, ?_, fun a ha => ?_⟩
  · rw [h.cancelled, List.mem_append, List.mem_singleton, or_iff_left (hm _).symm]
  · rw [visitedLate_concat, not_or]
    refine ⟨h.onTime, fun ⟨hm', hmem⟩ => ?_⟩
    have hfalse := hvisit hm'
    rw [h.cancelled.mpr hmem] at hfalse
    cases hfalse
  · rw [List.mem_append, List.mem_singleton, or_iff_left (hm _).symm] at ha
    exact h.idle a ha

theorem Unopened.cancel (h : Unopened past cancelled) : Unopened (past ++ [.cancel]) true := by
  refine ⟨by simp, ?_, fun a ha => ?_⟩
  · rw [visitedLate_concat, not_or]
    exact ⟨h.onTime, nofun⟩
  · rcases List.mem_append.mp ha with ha | ha
    · exact h.idle a ha
    · exact Move.step.inj (List.mem_singleton.mp ha)

/-- What the moves of a call tell about it. What is left of the scan decides what it comes to, and a
call that came to its files is one of workers that make the same steps. -/
def Call.Traced (c : Converter) (faults : Faults) (cwd : Location) (dir : Text) (t : FileTree)
    (past : List Move) : Call → Prop
  | .entering cancelled => Unopened past cancelled
  | .scanning cancelled left kept => Unopened past cancelled ∧
      outset c t cwd dir =
        ((Scan.select dir c.exclude false (Scan.walkRoot t cwd dir).2 left).1.map
          (kept ++ ·)).mapError (some ∘ .listing)
  | .converting s => ¬VisitedLate past ∧ ∃ files labels, outset c t cwd dir = .ok files ∧
      (State.start t files).steps c faults cwd (Package.name cwd dir) labels = some s ∧
      ∀ a, a ∈ labels ↔ .step a ∈ past
  | .failed e => e = .listing (.cancelled dir) ∧ VisitedLate past ∨
      e.isCancelled = false ∧ outset c t cwd dir = .error (some e)
  | .skipped => outset c t cwd dir = .error none

theorem Call.entered_traced (h : Unopened past cancelled) :
    (Call.entered c t cwd dir cancelled).Traced c faults cwd dir t (past ++ [.enter]) := by
  unfold Call.entered
  cases hdirectory : Package.validateDirectory t cwd dir with
  | error e => exact .inr ⟨rfl, by simp only [outset, hdirectory]⟩
  | ok _ =>
    simp only
    cases hroot : Package.isRoot c.files t dir with
    | error e => exact .inr ⟨rfl, by simp only [outset, hdirectory, hroot]⟩
    | ok root =>
      cases root with
      | false => simp only [Call.Traced, outset, hdirectory, hroot]
      | true =>
        simp only
        cases hexclude : Glob.validate c.exclude with
        | error e =>
          refine .inr ⟨rfl, ?_⟩
          simp only [outset, hdirectory, hroot, Scan.pythonFiles, hexclude]
        | ok _ =>
          refine ⟨h.next (by simp) (by simp), ?_⟩
          simp only [outset, hdirectory, hroot, Scan.pythonFiles_fst hexclude]
          cases (Scan.select dir c.exclude false (Scan.walkRoot t cwd dir).2
            (Scan.walkRoot t cwd dir).1).1 with
          | error e => rfl
          | ok files => rfl

theorem Call.visited_traced {path : Text} {left kept : List Text}
    (h : (Call.scanning cancelled (path :: left) kept).Traced c faults cwd dir t past) :
    (Call.visited c.exclude dir path cancelled left kept).Traced c faults cwd dir t
      (past ++ [.visit]) := by
  obtain ⟨hunopened, houtset⟩ := h
  cases cancelled with
  | true =>
    exact .inl ⟨rfl, visitedLate_concat.mpr (.inr ⟨rfl, hunopened.cancelled.mp rfl⟩)⟩
  | false =>
    have hnext := hunopened.next (m := .visit) nofun fun _ => rfl
    rw [Scan.select, if_neg Bool.false_ne_true] at houtset
    rw [Call.visited, if_neg Bool.false_ne_true]
    cases hchoose : Scan.choose path c.exclude with
    | malformed p =>
      rw [hchoose] at houtset
      exact .inr ⟨rfl, houtset⟩
    | excluded p =>
      rw [hchoose] at houtset
      exact ⟨hnext, houtset⟩
    | kept =>
      rw [hchoose] at houtset
      have hjoined : outset c t cwd dir =
          (((Scan.select dir c.exclude false (Scan.walkRoot t cwd dir).2 left).1.map
            (Path.join dir path :: ·)).map (kept ++ ·)).mapError (some ∘ .listing) := houtset
      refine ⟨hnext, hjoined.trans ?_⟩
      cases (Scan.select dir c.exclude false (Scan.walkRoot t cwd dir).2 left).1 with
      | error e => rfl
      | ok files =>
        show Except.ok (kept ++ Path.join dir path :: files) = .ok (kept ++ [_] ++ files)
        rw [List.append_assoc, List.singleton_append]

/-- A call that is cancelled when the walk is over is one of workers that is cancelled at once. -/
theorem Call.walked_traced {kept : List Text} (hnone : (Scan.walkRoot t cwd dir).2 = none)
    (h : (Call.scanning cancelled [] kept).Traced c faults cwd dir t past) :
    (Call.converting { State.start t kept with cancelled := cancelled }).Traced c faults cwd dir t
      (past ++ [.walked]) := by
  obtain ⟨hunopened, houtset⟩ := h
  have hnext := hunopened.next (m := .walked) nofun nofun
  have hkept : outset c t cwd dir = .ok kept := by
    rw [houtset, hnone]
    show Except.ok (kept ++ []) = .ok kept
    rw [List.append_nil]
  have hidle : ∀ a, .step a ∈ past ++ [.walked] ↔ a = .cancel ∧ cancelled = true := by
    intro a
    rw [hnext.cancelled]
    constructor
    · intro ha
      obtain rfl := hnext.idle a ha
      exact ⟨rfl, ha⟩
    · rintro ⟨rfl, ha⟩
      exact ha
  cases cancelled with
  | true =>
    refine ⟨hnext.onTime, kept, [.cancel], hkept, rfl, fun a => ?_⟩
    rw [hidle, List.mem_singleton, and_iff_left rfl]
  | false =>
    refine ⟨hnext.onTime, kept, [], hkept, rfl, fun a => ?_⟩
    rw [hidle]
    exact ⟨nofun, nofun⟩

theorem Call.Traced.next (h : k.Traced c faults cwd dir t past)
    (hmove : Moved c faults cwd dir t k m k') : k'.Traced c faults cwd dir t (past ++ [m]) := by
  cases hmove with
  | enter => exact Call.entered_traced h
  | warned => exact Unopened.cancel h
  | visit => exact Call.visited_traced h
  | broken hbroken =>
    obtain ⟨-, houtset⟩ := h
    rw [hbroken] at houtset
    exact .inr ⟨rfl, houtset⟩
  | walked hnone => exact Call.walked_traced hnone h
  | stopped => exact ⟨h.1.cancel, h.2⟩
  | @step s s' a hstep =>
    obtain ⟨htime, files, labels, houtset, hsteps, hlabels⟩ := h
    refine ⟨?_, files, labels ++ [a], houtset, State.steps_concat hsteps hstep, fun b => ?_⟩
    · rw [visitedLate_concat, not_or]
      exact ⟨htime, nofun⟩
    · rw [List.mem_append, List.mem_append, hlabels, List.mem_singleton, List.mem_singleton,
        Move.step.injEq]

theorem Call.moves_traced_of {ms : List Move} (h : k.Traced c faults cwd dir t past)
    (hmoves : k.moves c faults cwd dir t ms = some k') :
    k'.Traced c faults cwd dir t (past ++ ms) := by
  induction ms generalizing k past with
  | nil =>
    cases hmoves
    rw [List.append_nil]
    exact h
  | cons m rest ih =>
    obtain ⟨mid, hmid, hrest⟩ := Option.bind_eq_some_iff.mp hmoves
    have hnext := ih (h.next (Call.move_eq_some hmid)) hrest
    rwa [List.append_assoc, List.singleton_append] at hnext

theorem Call.moves_traced {ms : List Move}
    (hmoves : (Call.entering false).moves c faults cwd dir t ms = some k) :
    k.Traced c faults cwd dir t ms := by
  have hstart : Unopened [] false := by
    refine ⟨⟨nofun, nofun⟩, ?_, nofun⟩
    rintro ⟨pre, post, heq, -⟩
    simp at heq
  exact Call.moves_traced_of (k := .entering false) hstart hmoves

end Moves

end AbsoluteImports.Conversion
