import AbsoluteImports.Proofs.Conversion.Cancellation
import AbsoluteImports.Proofs.FileTree.Obstacles

/-!
# Directories that are not there

A call looks first whether its path leads to a directory. If it does not, the call ends there, with
an error and without a summary. The error says that the directory was not found when a name on the
way has no entry, or when the way ends at something that is no directory. It says that the
directory could not be checked when anything else stands in the way, as a file in the middle of the
path does. `missing_directory` has both conditions, for every call.
-/

namespace AbsoluteImports

open FileTree (Arrives Blocked)

variable {t : FileTree} {cwd : Location} {dir : Text}

/-! ### The check of a directory -/

namespace Package

def DirectoryError.isNotFound : DirectoryError → Bool
  | missing _ | notDirectory _ => true
  | unchecked .. => false

/-- The path leads to a directory. -/
def Resolves (t : FileTree) (cwd : Location) (dir : Text) : Prop :=
  ∃ l, Arrives t cwd dir l ∧ t.get? l = some .directory

/-- The path leads to something else, or to a name that has no entry. -/
def Absent (t : FileTree) (cwd : Location) (dir : Text) : Prop :=
  (∃ l, Arrives t cwd dir l ∧ t.get? l ≠ some .directory) ∨ Blocked t cwd dir .noEntry

theorem Absent.not_resolves (h : Absent t cwd dir) : ¬Resolves t cwd dir := by
  intro hresolves
  obtain ⟨l, hl, hdirectory⟩ := hresolves
  rcases h with ⟨m, hm, hother⟩ | hblocked
  · obtain rfl : l = m := Except.ok.inj (hl.locate_eq.symm.trans hm.locate_eq)
    exact hother hdirectory
  · cases hl.locate_eq.symm.trans hblocked.locate_eq

theorem eq_of_blocked {c c' : FileTree.Cause} (h : Blocked t cwd dir c)
    (h' : Blocked t cwd dir c') : c = c' :=
  Except.error.inj (h.locate_eq.symm.trans h'.locate_eq)

theorem not_resolves_of_blocked {c : FileTree.Cause} (h : Blocked t cwd dir c) :
    ¬Resolves t cwd dir := by
  intro hresolves
  obtain ⟨l, hl, -⟩ := hresolves
  cases hl.locate_eq.symm.trans h.locate_eq

theorem Absent.cause_eq {c : FileTree.Cause} (h : Absent t cwd dir) (hc : Blocked t cwd dir c) :
    c = .noEntry := by
  rcases h with ⟨l, hl, -⟩ | hnone
  · cases hl.locate_eq.symm.trans hc.locate_eq
  · exact eq_of_blocked hc hnone

/-- What the check says, by the way of the path. -/
inductive Checked (t : FileTree) (cwd : Location) (dir : Text) :
    Except DirectoryError Unit → Prop
  | found (h : Resolves t cwd dir) : Checked t cwd dir (.ok ())
  | absent {e : DirectoryError} (h : Absent t cwd dir) (he : e.isNotFound = true) :
      Checked t cwd dir (.error e)
  | blocked {c : FileTree.Cause} (h : Blocked t cwd dir c) (hc : c ≠ .noEntry) :
      Checked t cwd dir (.error (.unchecked dir ⟨.stat dir, c⟩))

theorem checked_validateDirectory (t : FileTree) (cwd : Location) (dir : Text) :
    Checked t cwd dir (validateDirectory t cwd dir) := by
  unfold validateDirectory FileTree.stat
  rcases FileTree.arrives_or_blocked t cwd dir with ⟨l, hl⟩ | ⟨c, hc⟩
  · simp only [hl.locate_eq]
    cases he : t.get? l with
    | none => exact .absent (.inl ⟨l, hl, by simp [he]⟩) rfl
    | some e =>
      cases e with
      | directory => exact .found ⟨l, hl, he⟩
      | file content mode => exact .absent (.inl ⟨l, hl, by simp [he]⟩) rfl
      | link target => exact .absent (.inl ⟨l, hl, by simp [he]⟩) rfl
  · simp only [hc.locate_eq]
    by_cases hnone : c = .noEntry
    · subst hnone
      exact .absent (.inr hc) rfl
    · simp only [hnone, ↓reduceIte]
      exact .blocked hc hnone

end Package

namespace Conversion

open Package (validateDirectory Resolves Absent Checked)

variable {c : Converter} {faults : Faults} {summary : Option Summary} {error : Option Error}

def Error.isNotFound : Error → Bool
  | .directory e => e.isNotFound
  | _ => false

/-! ### Calls that go by the check -/

/-- A call ends with the error of the check, and otherwise never with such an error. -/
def Heeds (t : FileTree) (cwd : Location) (dir : Text) (summary : Option Summary)
    (error : Option Error) : Prop :=
  match validateDirectory t cwd dir with
  | .error e => summary = none ∧ error = some (.directory e)
  | .ok () => ∀ e, error ≠ some (.directory e)

theorem run_heeds (c : Converter) (cancel : Cancellation) (t : FileTree) (cwd : Location)
    (dir : Text) :
    Heeds t cwd dir (run c cancel t cwd dir).summary (run c cancel t cwd dir).error := by
  unfold Heeds run
  cases validateDirectory t cwd dir with
  | error e => exact ⟨rfl, rfl⟩
  | ok _ =>
    simp only
    split
    · exact nofun
    · exact nofun
    · split
      · exact nofun
      · intro e
        simp only
        split
        · exact nofun
        · exact nofun

theorem run_refused {e : Package.DirectoryError} (h : validateDirectory t cwd dir = .error e)
    (c : Converter) (cancel : Cancellation) :
    (run c cancel t cwd dir).tree = t ∧ (run c cancel t cwd dir).reads = [] ∧
      (run c cancel t cwd dir).writes = [] := by
  unfold run
  rw [h]
  exact ⟨rfl, rfl, rfl⟩

/-- What the check said to a call that has made it. -/
def Call.Admitted (t : FileTree) (cwd : Location) (dir : Text) : Call → Prop
  | .entering _ => True
  | .failed (.directory e) => validateDirectory t cwd dir = .error e
  | .failed _ | .scanning .. | .converting _ | .skipped => validateDirectory t cwd dir = .ok ()

theorem Call.entered_admitted (c : Converter) (t : FileTree) (cwd : Location) (dir : Text)
    (cancelled : Bool) : (Call.entered c t cwd dir cancelled).Admitted t cwd dir := by
  unfold Call.entered
  cases hvalid : validateDirectory t cwd dir with
  | error e => exact hvalid
  | ok _ =>
    simp only
    split
    · exact hvalid
    · exact hvalid
    · split
      · exact hvalid
      · exact hvalid

theorem Call.visited_admitted (hvalid : validateDirectory t cwd dir = .ok ())
    (exclude : List Text) (path : Text) (cancelled : Bool) (left kept : List Text) :
    (Call.visited exclude dir path cancelled left kept).Admitted t cwd dir := by
  unfold Call.visited
  split
  · exact hvalid
  · split
    · exact hvalid
    · exact hvalid
    · exact hvalid

theorem Call.Admitted.next {k k' : Call} {m : Move} (h : k.Admitted t cwd dir)
    (hmove : Moved c faults cwd dir t k m k') : k'.Admitted t cwd dir := by
  cases hmove with
  | enter => exact Call.entered_admitted c t cwd dir _
  | warned => exact trivial
  | visit => exact Call.visited_admitted h _ _ _ _ _
  | broken _ => exact h
  | walked _ => exact h
  | stopped => exact h
  | step _ => exact h

theorem Call.moves_admitted {k k' : Call} {ms : List Move} (h : k.Admitted t cwd dir)
    (hmoves : k.moves c faults cwd dir t ms = some k') : k'.Admitted t cwd dir := by
  induction ms generalizing k with
  | nil =>
    cases hmoves
    exact h
  | cons m rest ih =>
    obtain ⟨mid, hmid, hrest⟩ := Option.bind_eq_some_iff.mp hmoves
    exact ih (h.next (Call.move_eq_some hmid)) hrest

theorem Call.Admitted.heeds {k : Call} (h : k.Admitted t cwd dir) (hreturned : k.returned = true) :
    Heeds t cwd dir (k.summary c cwd dir) (k.error dir) := by
  unfold Heeds
  cases k with
  | entering cancelled => cases hreturned
  | scanning cancelled left kept => cases hreturned
  | skipped =>
    have hvalid : validateDirectory t cwd dir = .ok () := h
    rw [hvalid]
    exact nofun
  | converting s =>
    have hvalid : validateDirectory t cwd dir = .ok () := h
    rw [hvalid]
    intro e
    unfold Call.error State.error
    simp only
    split
    · exact nofun
    · exact nofun
  | failed e =>
    cases e with
    | directory e =>
      have hvalid : validateDirectory t cwd dir = .error e := h
      rw [hvalid]
      exact ⟨rfl, rfl⟩
    | marker dir' e =>
      have hvalid : validateDirectory t cwd dir = .ok () := h
      rw [hvalid]
      exact nofun
    | listing e =>
      have hvalid : validateDirectory t cwd dir = .ok () := h
      rw [hvalid]
      exact nofun
    | cancelled dir' =>
      have hvalid : validateDirectory t cwd dir = .ok () := h
      rw [hvalid]
      exact nofun

/-! ### What is reported -/

/-- What a call says of its directory. -/
structure Reported (t : FileTree) (cwd : Location) (dir : Text) (summary : Option Summary)
    (error : Option Error) : Prop where
  refused : ¬Resolves t cwd dir → summary = none ∧ ∃ e, error = some (.directory e)
  accepted : Resolves t cwd dir → ∀ e, error = some e → e.isNotFound = false
  notFound : (∃ e, error = some e ∧ e.isNotFound = true) ↔ Absent t cwd dir
  unchecked : ∀ cause, error = some (.directory (.unchecked dir ⟨.stat dir, cause⟩)) ↔
    Blocked t cwd dir cause ∧ cause ≠ .noEntry

theorem Heeds.reported (h : Heeds t cwd dir summary error) :
    Reported t cwd dir summary error := by
  have hchecked := Package.checked_validateDirectory t cwd dir
  unfold Heeds at h
  generalize validateDirectory t cwd dir = verdict at h hchecked
  cases hchecked with
  | found hresolves =>
    have hfound : ∀ e, error = some e → e.isNotFound = false := by
      intro e he
      cases e with
      | directory e => exact absurd he (h e)
      | marker dir' e => rfl
      | listing e => rfl
      | cancelled dir' => rfl
    refine ⟨fun hnot => absurd hresolves hnot, fun _ => hfound, ⟨?_, ?_⟩, fun cause => ⟨?_, ?_⟩⟩
    · intro hnotFound
      obtain ⟨e, he, hnot⟩ := hnotFound
      rw [hfound e he] at hnot
      cases hnot
    · exact fun habsent => absurd hresolves habsent.not_resolves
    · exact fun he => absurd he (h _)
    · exact fun hblocked => absurd hresolves (Package.not_resolves_of_blocked hblocked.1)
  | @absent e habsent hnotFound =>
    obtain ⟨hsummary, rfl⟩ := h
    refine ⟨fun _ => ⟨hsummary, e, rfl⟩, fun hresolves => absurd hresolves habsent.not_resolves,
      ⟨fun _ => habsent, fun _ => ⟨_, rfl, hnotFound⟩⟩, fun cause => ⟨?_, ?_⟩⟩
    · intro he
      cases he
      cases hnotFound
    · exact fun hblocked => absurd (habsent.cause_eq hblocked.1) hblocked.2
  | @blocked cause hblocked hcause =>
    obtain ⟨hsummary, rfl⟩ := h
    have hnot := Package.not_resolves_of_blocked hblocked
    refine ⟨fun _ => ⟨hsummary, _, rfl⟩, fun hresolves => absurd hresolves hnot, ⟨?_, ?_⟩,
      fun cause' => ⟨?_, ?_⟩⟩
    · intro hnotFound
      obtain ⟨e, he, hfound⟩ := hnotFound
      cases he
      cases hfound
    · exact fun habsent => absurd (habsent.cause_eq hblocked) hcause
    · intro he
      cases he
      exact ⟨hblocked, hcause⟩
    · intro hblocked'
      rw [Package.eq_of_blocked hblocked hblocked'.1]

/-- Whatever stands in the way but a missing entry, the error does not say that the directory was
not found. -/
theorem run_unreported {cause : FileTree.Cause} (h : t.locate cwd dir = .error cause)
    (hcause : cause ≠ .noEntry) (c : Converter) (cancel : Cancellation) :
    ¬Resolves t cwd dir ∧
      (run c cancel t cwd dir).error.map Error.isNotFound = some false := by
  have hblocked : Blocked t cwd dir cause := FileTree.locate_eq_error_iff.mp h
  have hreported := (run_heeds c cancel t cwd dir).reported
  have herror := (hreported.unchecked cause).mpr ⟨hblocked, hcause⟩
  refine ⟨Package.not_resolves_of_blocked hblocked, ?_⟩
  rw [herror]
  rfl

/-- What every call says of its directory, cancelled or not and however its steps follow each other.
When the path does not lead to a directory there is no summary, and no file was read or written;
the error says that the directory was not found exactly when the path leads to something else or to
a name without an entry, and otherwise names what stands in the way. When the path leads to a
directory, no error says that it was not found. -/
theorem missing_directory (c : Converter) (faults : Faults) (t : FileTree) (cwd : Location)
    (dir : Text) :
    (∀ cancel : Cancellation,
      Reported t cwd dir (run c cancel t cwd dir).summary (run c cancel t cwd dir).error ∧
      (¬Resolves t cwd dir → (run c cancel t cwd dir).tree = t ∧
        (run c cancel t cwd dir).reads = [] ∧ (run c cancel t cwd dir).writes = [])) ∧
    ∀ ms k, (Call.entering false).moves c faults cwd dir t ms = some k → k.returned = true →
      Reported t cwd dir (k.summary c cwd dir) (k.error dir) := by
  constructor
  · intro cancel
    have hheeds := run_heeds c cancel t cwd dir
    refine ⟨hheeds.reported, fun hnot => ?_⟩
    cases hvalid : validateDirectory t cwd dir with
    | error e => exact run_refused hvalid c cancel
    | ok _ =>
      have hchecked := Package.checked_validateDirectory t cwd dir
      rw [hvalid] at hchecked
      cases hchecked with
      | found hresolves => exact absurd hresolves hnot
  · intro ms k hmoves hreturned
    have hadmitted : k.Admitted t cwd dir :=
      Call.moves_admitted (k := .entering false) trivial hmoves
    exact (hadmitted.heeds hreturned).reported

def bareTree : FileTree where
  entries :=
    [([['d']], .directory), ([['d'], ['f']], .file [] 0o644),
      (["gone".toList], .link "d/../d/none".toList), (["loop".toList], .link "./loop".toList)]
  nodup := by decide

/-- A way through a link to a name without an entry, and a way that ends at a file. -/
theorem missing_directory_bareTree :
    (∀ dir ∈ ["d/../gone/p".toList, "d/f".toList],
      (run pairConverter .never bareTree [] dir).summary = none ∧
      ∃ e, (run pairConverter .never bareTree [] dir).error = some e ∧ e.isNotFound = true) ∧
    (Call.entering false).moves pairConverter pairFaults [] ['x'] bareTree [.cancel, .enter] =
        some (.failed (.directory (.missing ['x']))) ∧
      Absent bareTree [] ['x'] := by
  have habsent : ∀ dir ∈ ["d/../gone/p".toList, "d/f".toList], Absent bareTree [] dir := by
    intro dir hdir
    rcases List.mem_pair.mp hdir with rfl | rfl
    · exact .inr (FileTree.locate_eq_error_iff.mp (by decide +kernel))
    · exact .inl ⟨[['d'], ['f']], FileTree.locate_eq_ok_iff.mp (by decide +kernel), by decide⟩
  have hmoves : (Call.entering false).moves pairConverter pairFaults [] ['x'] bareTree
      [.cancel, .enter] = some (.failed (.directory (.missing ['x']))) := rfl
  refine ⟨fun dir hdir => ?_, hmoves, ?_⟩
  · have hreported :=
      ((missing_directory pairConverter pairFaults bareTree [] dir).1 .never).1
    exact ⟨(hreported.refused (habsent dir hdir).not_resolves).1,
      hreported.notFound.mpr (habsent dir hdir)⟩
  · have hreported :=
      (missing_directory pairConverter pairFaults bareTree [] ['x']).2 _ _ hmoves rfl
    exact hreported.notFound.mp ⟨_, rfl, rfl⟩

/-- Three paths that lead to no directory and are not reported as missing: one goes on behind a
file, one through a link that leads to itself, and one holds a null. -/
theorem missing_directory_unreported :
    (¬Resolves bareTree [] "d/f/p".toList ∧
      (run pairConverter .never bareTree [] "d/f/p".toList).error.map Error.isNotFound =
        some false) ∧
    (¬Resolves bareTree [] "loop".toList ∧
      (run pairConverter .never bareTree [] "loop".toList).error.map Error.isNotFound =
        some false) ∧
    (¬Resolves bareTree [] ['d', '\x00'] ∧
      (run pairConverter .never bareTree [] ['d', '\x00']).error.map Error.isNotFound =
        some false) := by
  have hfile : bareTree.locate [] "d/f/p".toList = .error .notDirectory := by decide +kernel
  have hloop : bareTree.locate [] "loop".toList = .error .tooManyLinks := by decide +kernel
  have hnull : bareTree.locate [] ['d', '\x00'] = .error .invalidArgument := by decide +kernel
  exact ⟨run_unreported hfile nofun _ _, run_unreported hloop nofun _ _,
    run_unreported hnull nofun _ _⟩

end Conversion

end AbsoluteImports
