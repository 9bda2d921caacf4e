import AbsoluteImports.Proofs.CommandLine.Gate
import Mathlib.Algebra.GroupWithZero.Nat

/-!
# The counts of a run add up

Exit status, closing line and table are all computed from the counts of a batch. Each count is the
sum over the summaries of the directories so far, and the counts of files add up, because every
result of a conversion is consistent. This holds for calls that finish, fail or are cancelled at any
moment, so also for the partial summary of the call that ends a batch.
-/

namespace AbsoluteImports

/-! ### One summary -/

namespace Summary

variable {s : Summary}

/-- The counts of a summary fit to its results. -/
structure Balanced (s : Summary) : Prop where
  consistent : ∀ r ∈ s.results, r.Consistent
  counts : s.count .unchanged + s.count .updated + s.count .failed = s.results.length
  failures : s.count .failed = s.failures.length
  skipped : s.skipped = true → s.results = []

theorem count_eq_countP (s : Summary) (o : Outcome) :
    s.count o = s.results.countP (·.outcome = o) := by
  rw [count, List.countP_eq_length_filter]

theorem changeCount_eq_sum (s : Summary) :
    s.changeCount = (s.results.map fun r => r.changes.length).sum := by
  rw [changeCount, List.sum, List.foldr_map]

theorem countP_add {rs : List Result} (h : ∀ r ∈ rs, r.Consistent) :
    rs.countP (·.outcome = .unchanged) + rs.countP (·.outcome = .updated) +
      rs.countP (·.outcome = .failed) = rs.length := by
  induction rs with
  | nil => rfl
  | cons r rs ih =>
    obtain ⟨hr, hrs⟩ := List.forall_mem_cons.mp h
    have hrest := ih hrs
    have hknown := hr.known
    simp only [List.countP_cons, List.length_cons]
    cases ho : r.outcome with
    | unknown => exact absurd ho hknown
    | unchanged => simp; omega
    | updated => simp; omega
    | failed => simp; omega

theorem countP_le_changes {rs : List Result} (h : ∀ r ∈ rs, r.Consistent) :
    rs.countP (·.outcome = .updated) ≤ (rs.map fun r => r.changes.length).sum ∧
      (rs.countP (·.outcome = .updated) = 0 → (rs.map fun r => r.changes.length).sum = 0) := by
  induction rs with
  | nil => simp
  | cons r rs ih =>
    obtain ⟨hr, hrs⟩ := List.forall_mem_cons.mp h
    obtain ⟨hle, hzero⟩ := ih hrs
    rw [List.countP_cons, List.map_cons, List.sum_cons]
    by_cases ho : r.outcome = .updated
    · have hpos := List.length_pos_iff.mpr (hr.changes.mpr ho)
      simp only [ho, decide_true, ↓reduceIte]
      omega
    · have hnone : r.changes = [] := by
        by_contra hne
        exact ho (hr.changes.mp hne)
      simp only [ho, decide_false, Bool.false_eq_true, ↓reduceIte, hnone, List.length_nil]
      omega

theorem balanced_of_consistent (h : ∀ r ∈ s.results, r.Consistent)
    (hskipped : s.skipped = true → s.results = []) : s.Balanced := by
  refine ⟨h, ?_, rfl, hskipped⟩
  simp only [count_eq_countP]
  exact countP_add h

theorem Balanced.count_le_changeCount (h : s.Balanced) :
    s.count .updated ≤ s.changeCount ∧ (s.count .updated = 0 → s.changeCount = 0) := by
  simp only [count_eq_countP, changeCount_eq_sum]
  exact countP_le_changes h.consistent

end Summary

/-! ### Totals -/

namespace Totals

variable {t : Totals} {ss : List Summary}

/-- Each count is the sum over some summaries. -/
structure SumOf (ss : List Summary) (t : Totals) : Prop where
  directories : t.directories = ss.length
  skipped : t.skipped = (ss.map fun s => if s.skipped then 1 else 0).sum
  files : t.files = (ss.map fun s => s.results.length).sum
  updated : t.updated = (ss.map fun s => s.count .updated).sum
  unchanged : t.unchanged = (ss.map fun s => s.count .unchanged).sum
  failed : t.failed = (ss.map fun s => s.count .failed).sum
  imports : t.imports = (ss.map fun s => s.changeCount).sum

structure Balanced (t : Totals) : Prop where
  files : t.files = t.updated + t.unchanged + t.failed
  imports : t.updated ≤ t.imports
  none : t.imports = 0 ↔ t.updated = 0
  skipped : t.skipped ≤ t.directories

theorem SumOf.add (h : SumOf ss t) (s : Summary) : SumOf (ss ++ [s]) (t.add s) := by
  constructor
  all_goals simp [Totals.add, h.directories, h.skipped, h.files, h.updated, h.unchanged, h.failed,
    h.imports]

theorem Balanced.add (h : t.Balanced) {s : Summary} (hs : s.Balanced) : (t.add s).Balanced := by
  obtain ⟨hle, hzero⟩ := hs.count_le_changeCount
  have hcounts := hs.counts
  have hskipped : (if s.skipped then 1 else 0) ≤ 1 := by
    split
    · exact Nat.le_refl 1
    · exact Nat.zero_le 1
  obtain ⟨hfiles, himports, hnone, hskip⟩ := h
  constructor
  · simp only [Totals.add]
    omega
  · simp only [Totals.add]
    omega
  · simp only [Totals.add]
    omega
  · simp only [Totals.add]
    omega

theorem foldl_add {seen : List Summary} (hsum : SumOf seen t) (hbalanced : t.Balanced)
    (h : ∀ s ∈ ss, s.Balanced) :
    SumOf (seen ++ ss) (ss.foldl Totals.add t) ∧ (ss.foldl Totals.add t).Balanced := by
  induction ss generalizing seen t with
  | nil =>
    rw [List.append_nil]
    exact ⟨hsum, hbalanced⟩
  | cons s ss ih =>
    obtain ⟨hs, hss⟩ := List.forall_mem_cons.mp h
    have hnext := ih (hsum.add s) (hbalanced.add hs) hss
    rw [List.append_assoc] at hnext
    exact hnext

theorem ofSummaries_balanced (h : ∀ s ∈ ss, s.Balanced) :
    SumOf ss (ofSummaries ss) ∧ (ofSummaries ss).Balanced := by
  have hsum : SumOf [] zero := by
    constructor
    all_goals rfl
  have hbalanced : zero.Balanced := by
    constructor
    all_goals decide
  exact foldl_add hsum hbalanced h

end Totals

/-! ### Calls -/

namespace Conversion

variable {c : Converter} {faults : Faults} {cwd : Location} {t : FileTree} {dir : Text}

theorem Called.balanced {r : Run} (h : Called c faults cwd t dir true r) :
    ∀ summary ∈ r.summary, summary.Balanced := by
  intro summary hsummary
  cases h with
  | sequential cancel _ =>
    obtain ⟨hresults, hskipped⟩ := run_consistent c cancel t cwd dir summary hsummary
    exact Summary.balanced_of_consistent hresults hskipped
  | workers hmoves hreturned _ events =>
    cases Call.moves_outcome hmoves hreturned with
    | stopped e _ hstop =>
      have hnone := (hstop events).results_eq summary hsummary
      exact Summary.balanced_of_consistent (by simp [hnone]) fun _ => hnone
    | lost _ => cases hsummary
    | worked _ hsteps =>
      cases hsummary
      exact Summary.balanced_of_consistent (State.steps_consistent hsteps) nofun

end Conversion

/-! ### Several directories -/

namespace Batch

variable {t : FileTree} {dirs : List Text} {rs : List (Text × Conversion.Run)}

theorem Follows.mono {call call' : FileTree → Text → Conversion.Run → Prop}
    (hcall : ∀ t dir r, call t dir r → call' t dir r) (h : Follows call t dirs rs) :
    Follows call' t dirs rs := by
  induction h with
  | nil t => exact .nil t
  | stopped hr herror => exact .stopped (hcall _ _ _ hr) herror
  | cons hr herror _ ih => exact .cons (hcall _ _ _ hr) herror ih

/-- For every list of directories, however its calls go and wherever one of them ends the batch:
every result is consistent, the counts of every summary fit to its results, and after each of the
directories the totals are the sums over the summaries so far and add up. The program's own batch
is one of these, with any cancellation. -/
theorem batch_balanced (c : Converter) (faults : Faults) (cwd : Location)
    (t : FileTree) (dirs : List Text) :
    (∀ cancel, Follows (fun t dir => Conversion.Called c faults cwd t dir true) t dirs
        (runs c cancel cwd t dirs)) ∧
      ∀ rs, Follows (fun t dir => Conversion.Called c faults cwd t dir true) t dirs rs →
        (∀ x ∈ rs, ∀ summary ∈ x.2.summary, summary.Balanced) ∧
        ∀ done, done <+: rs →
          Totals.SumOf (summaries done) (totals done) ∧ (totals done).Balanced := by
  constructor
  · intro cancel
    refine (runs_follows_any c cancel cwd t dirs).mono ?_
    rintro t dir r rfl
    exact .sequential cancel (.inr rfl)
  · intro rs hrs
    have hbalanced : ∀ x ∈ rs, ∀ summary ∈ x.2.summary, summary.Balanced := by
      intro x hx
      obtain ⟨u, hcall⟩ := hrs.called x hx
      exact hcall.balanced
    refine ⟨hbalanced, ?_⟩
    intro done hdone
    refine Totals.ofSummaries_balanced ?_
    intro summary hsummary
    obtain ⟨x, hx, hsome⟩ := List.mem_filterMap.mp hsummary
    exact hbalanced x (hdone.subset hx) summary hsome

/-- A directory that is no package comes first; the call over the package is cancelled after one of
its files was updated and before another was read. -/
theorem batch_balanced_cancelled :
    ∃ rs, Follows (fun t dir => Conversion.Called Conversion.pairConverter Conversion.pairFaults []
          t dir true) Conversion.pairPackage [['.'], ['p'], ['q']] rs ∧
      totals rs = ⟨2, 1, 2, 1, 1, 0, 1⟩ ∧
      Totals.SumOf (summaries rs) (totals rs) ∧ (totals rs).Balanced := by
  have hends : ((Conversion.Call.entering false).moves Conversion.pairConverter
      Conversion.pairFaults [] ['p'] Conversion.pairPackage Conversion.workMoves).map (fun k =>
        let r := k.toRun Conversion.pairConverter [] ['p'] Conversion.pairPackage
          Conversion.workMoves []
        (k.returned, r.error, totals [(['.'], Conversion.run Conversion.pairConverter .never
          Conversion.pairPackage [] ['.']), (['p'], r)])) =
      some (true, some (.cancelled ['p']), ⟨2, 1, 2, 1, 1, 0, 1⟩) := by decide +kernel
  obtain ⟨k, hk, htriple⟩ := Option.map_eq_some_iff.mp hends
  simp only [Prod.mk.injEq] at htriple
  obtain ⟨hreturned, herror, htotals⟩ := htriple
  have hfollows : Follows (fun t dir => Conversion.Called Conversion.pairConverter
      Conversion.pairFaults [] t dir true) Conversion.pairPackage [['.'], ['p'], ['q']]
      [(['.'], Conversion.run Conversion.pairConverter .never Conversion.pairPackage [] ['.']),
        (['p'], k.toRun Conversion.pairConverter [] ['p'] Conversion.pairPackage
          Conversion.workMoves [])] := by
    refine .cons (.sequential .never (.inr rfl)) rfl (.stopped ?_ ?_)
    · exact .workers hk hreturned (.inr rfl) []
    · rw [herror]
      simp
  exact ⟨_, hfollows, htotals,
    ((batch_balanced _ _ _ _ _).2 _ hfollows).2 _ (List.prefix_refl _)⟩

end Batch

end AbsoluteImports
