import AbsoluteImports.Proofs.Glob.Matching
import AbsoluteImports.Scan
import Mathlib.Control.Monad.Basic

/-!
# Exclude patterns in a scan

The patterns are tried one after the other on each file that the walk found, and the first verdict
other than a no ends the trial. When no verdict is malformed, the scan keeps the files that no
pattern matches, in place. A malformed verdict ends the scan, and then the pattern is not steady.
-/

namespace AbsoluteImports.Scan

variable {t : FileTree} {cwd : Location} {root path p : Text} {exclude found files : List Text}
  {stopped : Option WalkError}

/-! ### The verdict on one file -/

/-- Whether no pattern takes a file out. -/
def Kept (exclude : List Text) (path : Text) : Prop :=
  ∀ p ∈ exclude, Glob.check p path = .unmatched

instance (exclude : List Text) (path : Text) : Decidable (Kept exclude path) :=
  inferInstanceAs (Decidable (∀ p ∈ exclude, Glob.check p path = .unmatched))

theorem choose_eq_kept : choose path exclude = .kept ↔ Kept exclude path := by
  induction exclude with
  | nil => simp [choose, Kept]
  | cons q qs ih =>
    rw [choose, Kept, List.forall_mem_cons]
    cases hcheck : Glob.check q path with
    | matched => simp
    | unmatched =>
      simp only [true_and]
      exact ih
    | malformed => simp

theorem check_of_choose_malformed (h : choose path exclude = .malformed p) :
    p ∈ exclude ∧ Glob.check p path = .malformed := by
  induction exclude with
  | nil => cases h
  | cons q qs ih =>
    rw [choose] at h
    split at h
    · cases h
    · obtain ⟨hmem, hcheck⟩ := ih h
      exact ⟨List.mem_cons_of_mem _ hmem, hcheck⟩
    · rename_i hcheck
      cases h
      exact ⟨List.mem_cons_self, hcheck⟩

/-! ### The files that are selected -/

theorem select_eq (h : ∀ path ∈ found, ∀ p, choose path exclude ≠ .malformed p) :
    (select root exclude false stopped found).1 =
      match stopped with
      | some e => .error (.walking root e)
      | none => .ok ((found.filter fun path => Kept exclude path).map (Path.join root)) := by
  induction found with
  | nil => cases stopped <;> rfl
  | cons path rest ih =>
    obtain ⟨hpath, hrest⟩ := List.forall_mem_cons.mp h
    have hlater := ih hrest
    rw [select, if_neg (by simp)]
    split
    · rename_i p hmalformed
      exact (hpath p hmalformed).elim
    · rename_i p hexcluded
      have hout : ¬ Kept exclude path := by
        rw [← choose_eq_kept, hexcluded]
        simp
      simp only [hlater, List.filter_cons, hout, decide_false, Bool.false_eq_true, if_false]
    · rename_i hkept
      have hin : Kept exclude path := choose_eq_kept.mp hkept
      simp only [hlater, List.filter_cons, hin, decide_true, if_true, List.map_cons]
      cases stopped <;> rfl

theorem select_error {cancelled : Bool} {e : Error}
    (h : (select root exclude cancelled stopped found).1 = .error e) :
    (∃ w, stopped = some w ∧ e = .walking root w) ∨ cancelled = true ∧ e = .cancelled root ∨
      ∃ path ∈ found, ∃ p, choose path exclude = .malformed p ∧ e = .matching root p := by
  induction found with
  | nil =>
    cases stopped with
    | none => cases h
    | some w =>
      cases h
      exact .inl ⟨w, rfl, rfl⟩
  | cons path rest ih =>
    have hlater : (select root exclude cancelled stopped rest).1 = .error e →
        (∃ w, stopped = some w ∧ e = .walking root w) ∨ cancelled = true ∧ e = .cancelled root ∨
          ∃ path' ∈ path :: rest, ∃ p, choose path' exclude = .malformed p ∧
            e = .matching root p := by
      intro hrest
      refine (ih hrest).imp_right (Or.imp_right ?_)
      rintro ⟨path', hmem, hchoose⟩
      exact ⟨path', List.mem_cons_of_mem _ hmem, hchoose⟩
    rw [select] at h
    split at h
    · cases h
      exact .inr (.inl ⟨‹_›, rfl⟩)
    · split at h
      · rename_i q hchoose
        cases h
        exact .inr (.inr ⟨path, List.mem_cons_self, q, hchoose, rfl⟩)
      · exact hlater h
      · cases hrest : (select root exclude cancelled stopped rest).1 with
        | error e' =>
          simp only [hrest] at h
          cases h
          exact hlater hrest
        | ok kept =>
          simp only [hrest] at h
          cases h

theorem select_of_choose_malformed (hmem : path ∈ found) (h : choose path exclude = .malformed p) :
    ∃ q, (select root exclude false stopped found).1 = .error (.matching root q) := by
  induction found with
  | nil => cases hmem
  | cons first rest ih =>
    rw [select, if_neg (by simp)]
    split
    · exact ⟨_, rfl⟩
    · rename_i q hexcluded
      rcases List.mem_cons.mp hmem with rfl | hmem
      · rw [hexcluded] at h
        cases h
      · exact ih hmem
    · rename_i hkept
      rcases List.mem_cons.mp hmem with rfl | hmem
      · rw [hkept] at h
        cases h
      · obtain ⟨q, hq⟩ := ih hmem
        refine ⟨q, ?_⟩
        simp only [hq]
        rfl

theorem select_eq_ok :
    (select root exclude false stopped found).1 = .ok files ↔
      stopped = none ∧ (∀ path ∈ found, ∀ p, choose path exclude ≠ .malformed p) ∧
        files = (found.filter fun path => Kept exclude path).map (Path.join root) := by
  constructor
  · intro h
    have hquiet : ∀ path ∈ found, ∀ p, choose path exclude ≠ .malformed p := by
      intro path hmem p hmalformed
      obtain ⟨q, hq⟩ : ∃ q, (select root exclude false stopped found).1 = .error (.matching root q) :=
        select_of_choose_malformed hmem hmalformed
      rw [hq] at h
      cases h
    rw [select_eq hquiet] at h
    split at h
    · cases h
    · cases h
      exact ⟨rfl, hquiet, rfl⟩
  · rintro ⟨rfl, hquiet, rfl⟩
    exact select_eq hquiet

theorem select_uncancelled {cancelled : Bool}
    (h : (select root exclude cancelled stopped found).1 = .ok files) :
    (select root exclude false stopped found).1 = .ok files := by
  cases cancelled with
  | false => exact h
  | true =>
    cases found with
    | nil => exact h
    | cons path rest =>
      rw [select, if_pos rfl] at h
      cases h

/-! ### Scans with accepted patterns -/

theorem validate_eq_ok : Glob.validate exclude = .ok () ↔ ∀ p ∈ exclude, Glob.isValid p = true := by
  induction exclude with
  | nil => simp [Glob.validate]
  | cons q qs ih =>
    rw [Glob.validate, List.forall_mem_cons]
    split
    · rename_i hq
      simp [ih, hq]
    · rename_i hq
      simp [hq]

theorem pythonFiles_fst {cancelled : Bool} (hvalid : Glob.validate exclude = .ok ()) :
    (pythonFiles t cwd root exclude cancelled).1 =
      (select root exclude cancelled (walkRoot t cwd root).2 (walkRoot t cwd root).1).1 := by
  unfold pythonFiles
  rw [hvalid]
  simp only
  split
  · rename_i hselect
    rw [hselect]
  · rename_i hselect
    rw [hselect]

/-- When a scan gives files, and which. -/
theorem pythonFiles_eq_ok : (pythonFiles t cwd root exclude false).1 = .ok files ↔
    Glob.validate exclude = .ok () ∧ (walkRoot t cwd root).2 = none ∧
      (∀ path ∈ (walkRoot t cwd root).1, ∀ p, choose path exclude ≠ .malformed p) ∧
      files = ((walkRoot t cwd root).1.filter fun path => Kept exclude path).map
        (Path.join root) := by
  cases hvalid : Glob.validate exclude with
  | error e => simp [pythonFiles, hvalid]
  | ok _ => simp only [pythonFiles_fst hvalid, select_eq_ok, true_and]

theorem pythonFiles_uncancelled {cancelled : Bool}
    (h : (pythonFiles t cwd root exclude cancelled).1 = .ok files) :
    (pythonFiles t cwd root exclude false).1 = .ok files := by
  cases hvalid : Glob.validate exclude with
  | error e =>
    rw [pythonFiles, hvalid] at h
    cases h
  | ok _ =>
    rw [pythonFiles_fst hvalid] at h ⊢
    exact select_uncancelled h

theorem pythonFiles_selected {cancelled : Bool} {es : List Event}
    (h : pythonFiles t cwd root exclude cancelled = (.ok files, es)) :
    files = ((walkRoot t cwd root).1.filter fun path => Kept exclude path).map
      (Path.join root) := by
  have hfiles : (pythonFiles t cwd root exclude cancelled).1 = .ok files := by rw [h]
  exact (pythonFiles_eq_ok.mp (pythonFiles_uncancelled hfiles)).2.2.2

/-- A scan notices that it is cancelled at the first file that it visits. -/
theorem pythonFiles_cancelled {cancelled : Bool} (hvalid : Glob.validate exclude = .ok ()) :
    (pythonFiles t cwd root exclude cancelled).1 = .error (.cancelled root) ↔
      cancelled = true ∧ (walkRoot t cwd root).1 ≠ [] := by
  rw [pythonFiles_fst hvalid]
  cases (walkRoot t cwd root).1 with
  | nil =>
    refine ⟨fun h => ?_, fun h => absurd rfl h.2⟩
    cases hstopped : (walkRoot t cwd root).2 with
    | none =>
      rw [hstopped] at h
      cases h
    | some e =>
      rw [hstopped] at h
      cases h
  | cons path rest =>
    refine ⟨fun h => ?_, fun h => ?_⟩
    · rcases select_error h with ⟨e, -, he⟩ | ⟨hcancelled, -⟩ | ⟨path', -, p, -, he⟩
      · cases he
      · exact ⟨hcancelled, List.cons_ne_nil _ _⟩
      · cases he
    · rw [h.1]
      rfl

/-- What accepted patterns can do to a scan: it is broken by one of them exactly when a file that
it visits has a malformed verdict, and a steady pattern never gives one. -/
theorem pythonFiles_validated (t : FileTree) (cwd : Location) (root : Text) (exclude : List Text)
    (hvalid : Glob.validate exclude = .ok ()) :
    (∀ e, (pythonFiles t cwd root exclude false).1 ≠ .error (.badPattern e)) ∧
      ((∃ root' p, (pythonFiles t cwd root exclude false).1 = .error (.matching root' p)) ↔
        ∃ path ∈ (walkRoot t cwd root).1, ∃ p, choose path exclude = .malformed p) ∧
      (∀ path p, choose path exclude = .malformed p →
        p ∈ exclude ∧ Glob.check p path = .malformed ∧ Glob.steady p = false) ∧
      ((∀ p ∈ exclude, Glob.steady p = true) →
        (∀ p ∈ exclude, ∀ name, Glob.check p name ≠ .malformed) ∧
        ∀ root' p, (pythonFiles t cwd root exclude false).1 ≠ .error (.matching root' p)) := by
  have hunsteady : ∀ path p, choose path exclude = .malformed p →
      p ∈ exclude ∧ Glob.check p path = .malformed ∧ Glob.steady p = false := by
    intro path p h
    obtain ⟨hmem, hcheck⟩ := check_of_choose_malformed h
    refine ⟨hmem, hcheck, Bool.eq_false_iff.mpr fun hsteady => ?_⟩
    exact Glob.check_ne_malformed hsteady path hcheck
  have hbroken : ∀ root' p, (pythonFiles t cwd root exclude false).1 = .error (.matching root' p) →
      ∃ path ∈ (walkRoot t cwd root).1, choose path exclude = .malformed p := by
    intro root' p h
    rw [pythonFiles_fst hvalid] at h
    rcases select_error h with ⟨w, -, he⟩ | ⟨hcancelled, -⟩ | ⟨path, hmem, q, hchoose, he⟩
    · cases he
    · cases hcancelled
    · cases he
      exact ⟨path, hmem, hchoose⟩
  refine ⟨?_, ⟨?_, ?_⟩, hunsteady, fun hsteady => ⟨?_, ?_⟩⟩
  · intro e h
    rw [pythonFiles_fst hvalid] at h
    rcases select_error h with ⟨w, -, he⟩ | ⟨-, he⟩ | ⟨path, -, q, -, he⟩ <;> cases he
  · rintro ⟨root', p, h⟩
    obtain ⟨path, hmem, hchoose⟩ := hbroken root' p h
    exact ⟨path, hmem, p, hchoose⟩
  · rintro ⟨path, hmem, p, hchoose⟩
    obtain ⟨q, hq⟩ := select_of_choose_malformed hmem hchoose
    exact ⟨root, q, (pythonFiles_fst hvalid).trans hq⟩
  · exact fun p hp name => Glob.check_ne_malformed (hsteady p hp) name
  · intro root' p h
    obtain ⟨path, -, hchoose⟩ := hbroken root' p h
    obtain ⟨hp, -, hnot⟩ := hunsteady path p hchoose
    rw [hsteady p hp] at hnot
    cases hnot

def lonePackage : FileTree where
  entries := [([['p']], .directory), ([['p'], "a.py".toList], .file [] 0o644)]
  nodup := by decide

def ordinaryPatterns : List Text :=
  ["**/test_*.py".toList, "\x7bbuild,dist[0-9]\x7d/**".toList, "[!_]?\\[*.py".toList]

/-- Ordinary patterns never break a scan. -/
theorem pythonFiles_validated_ordinary :
    Glob.validate ordinaryPatterns = .ok () ∧ ∀ root' p,
      (pythonFiles lonePackage [] ['p'] ordinaryPatterns false).1 ≠ .error (.matching root' p) := by
  have hvalid : Glob.validate ordinaryPatterns = .ok () := by decide +kernel
  have hsteady : ∀ p ∈ ordinaryPatterns, Glob.steady p = true := by decide +kernel
  exact ⟨hvalid, ((pythonFiles_validated lonePackage [] ['p'] _ hvalid).2.2.2 hsteady).2⟩

/-- A class with a closing brace, in braces. -/
def bracedClass : Text := "\x7b[\x7d]\x7d".toList

def negatedClass : Text := "[^a\x7b]*.py".toList

/-- Two accepted patterns that break a scan: the first is cut inside its class, the second excludes
a name in the middle of its class. -/
theorem pythonFiles_broken :
    Glob.validate [bracedClass] = .ok () ∧
      (pythonFiles lonePackage [] ['p'] [bracedClass] false).1 =
        .error (.matching ['p'] bracedClass) ∧
      Glob.validate [negatedClass] = .ok () ∧
      (pythonFiles lonePackage [] ['p'] [negatedClass] false).1 =
        .error (.matching ['p'] negatedClass) := by
  decide +kernel

end AbsoluteImports.Scan
