import AbsoluteImports.CommandLine.Run
import AbsoluteImports.Proofs.Conversion.Quiet

/-!
# Checking is an exact gate for converting

A check writes nothing, and it succeeds exactly when converting the same directories from the same
tree would succeed and update nothing. Directories may overlap or come twice: the first one that is
not quiet fails the check, and up to it both commands see the same tree.
-/

namespace AbsoluteImports

/-! ### Totals -/

namespace Totals

theorem foldl_add_eq_zero (t : Totals) (ss : List Summary) :
    ((ss.foldl add t).failed = 0 ∧ (ss.foldl add t).updated = 0) ↔
      (t.failed = 0 ∧ t.updated = 0) ∧
        ∀ s ∈ ss, s.count .failed = 0 ∧ s.count .updated = 0 := by
  induction ss generalizing t with
  | nil => simp
  | cons s ss ih =>
    rw [List.foldl_cons, ih (t.add s), List.forall_mem_cons, ← and_assoc]
    refine and_congr_left' ?_
    simp only [add]
    omega

theorem ofSummaries_eq_zero {ss : List Summary} :
    ((ofSummaries ss).failed = 0 ∧ (ofSummaries ss).updated = 0) ↔
      ∀ s ∈ ss, ∀ r ∈ s.results, r.outcome ≠ .failed ∧ r.outcome ≠ .updated := by
  rw [ofSummaries, foldl_add_eq_zero]
  simp only [zero, and_self, true_and, Summary.count, List.length_eq_zero_iff,
    List.filter_eq_nil_iff, decide_eq_true_eq]
  constructor
  · intro h s hs r hr
    exact ⟨(h s hs).1 r hr, (h s hs).2 r hr⟩
  · intro h s hs
    exact ⟨fun r hr => (h s hs r hr).1, fun r hr => (h s hs r hr).2⟩

end Totals

/-! ### Several directories -/

namespace Batch

/-- The runs over directories in turn, where `call` says what a run over one may be. -/
inductive Follows (call : FileTree → Text → Conversion.Run → Prop) :
    FileTree → List Text → List (Text × Conversion.Run) → Prop
  | nil (t : FileTree) : Follows call t [] []
  | stopped {t : FileTree} {dir : Text} {rest : List Text} {r : Conversion.Run}
      (h : call t dir r) (herror : r.error ≠ none) : Follows call t (dir :: rest) [(dir, r)]
  | cons {t : FileTree} {dir : Text} {rest : List Text} {r : Conversion.Run}
      {rs : List (Text × Conversion.Run)} (h : call t dir r) (herror : r.error = none)
      (hrest : Follows call r.tree rest rs) : Follows call t (dir :: rest) ((dir, r) :: rs)

theorem runs_follows_any (c : Converter) (cancel : Cancellation) (cwd : Location) (t : FileTree)
    (dirs : List Text) :
    Follows (fun t dir r => r = Conversion.run c cancel t cwd dir) t dirs
      (runs c cancel cwd t dirs) := by
  induction dirs generalizing t with
  | nil => exact .nil t
  | cons dir rest ih =>
    rw [runs]
    cases he : (Conversion.run c cancel t cwd dir).error with
    | none =>
      simp only [Option.isSome_none, Bool.false_eq_true, ↓reduceIte]
      exact .cons rfl he (ih _)
    | some e =>
      simp only [Option.isSome_some, ↓reduceIte]
      exact .stopped rfl (by simp [he])

theorem runs_follows (c : Converter) (cwd : Location) (t : FileTree) (dirs : List Text) :
    Follows (fun t dir r => r = Conversion.run c .never t cwd dir) t dirs
      (runs c .never cwd t dirs) :=
  runs_follows_any c .never cwd t dirs

section Judged

variable {call : FileTree → Text → Conversion.Run → Prop} {c : Converter} {cwd : Location}
  {t : FileTree} {dirs : List Text} {rs : List (Text × Conversion.Run)}

theorem Follows.called (h : Follows call t dirs rs) : ∀ x ∈ rs, ∃ u, call u x.1 x.2 := by
  induction h with
  | nil t => simp
  | @stopped t dir rest r hr herror =>
    intro x hx
    rw [List.mem_singleton.mp hx]
    exact ⟨t, hr⟩
  | @cons t dir rest r rs hr herror hrest ih =>
    rw [List.forall_mem_cons]
    exact ⟨⟨t, hr⟩, ih⟩

theorem Follows.quiet_iff
    (hcall : ∀ t dir r, call t dir r → Conversion.Judged c cwd t dir r)
    (h : Follows call t dirs rs) :
    (∀ x ∈ rs, x.2.Quiet) ↔ ∀ dir ∈ dirs, Conversion.Settled c cwd t dir := by
  induction h with
  | nil t => simp
  | @stopped t dir rest r hr herror =>
    have hjudged := hcall t dir r hr
    constructor
    · intro hall
      exact absurd (hall (dir, r) (List.mem_cons_self ..)).1 herror
    · intro hall
      exact absurd (hjudged.quiet.mpr (hall dir (List.mem_cons_self ..))).1 herror
  | @cons t dir rest r rs hr herror hrest ih =>
    have hjudged := hcall t dir r hr
    rw [List.forall_mem_cons, List.forall_mem_cons, hjudged.quiet, ih]
    constructor
    · rintro ⟨hfirst, hrest⟩
      rw [hjudged.tree (hjudged.quiet.mpr hfirst)] at hrest
      exact ⟨hfirst, hrest⟩
    · rintro ⟨hfirst, hrest⟩
      rw [hjudged.tree (hjudged.quiet.mpr hfirst)]
      exact ⟨hfirst, hrest⟩

theorem left_cons (t : FileTree) (x : Text × Conversion.Run)
    (rs : List (Text × Conversion.Run)) : left t (x :: rs) = left x.2.tree rs := by
  cases rs with
  | nil => rfl
  | cons y ys =>
    simp only [left, List.getLast?_cons_cons]
    cases hl : (y :: ys).getLast? with
    | none => simp at hl
    | some z => rfl

theorem Follows.left_eq (hcall : ∀ t dir r, call t dir r → Conversion.Judged c cwd t dir r)
    (hdry : c.dryRun = true) (h : Follows call t dirs rs) : left t rs = t := by
  induction h with
  | nil t => rfl
  | @stopped t dir rest r hr herror => exact (hcall t dir r hr).dry hdry
  | @cons t dir rest r rs hr herror hrest ih =>
    rw [left_cons, ih]
    exact (hcall t dir r hr).dry hdry

theorem Follows.known (hcall : ∀ t dir r, call t dir r → Conversion.Judged c cwd t dir r)
    (h : Follows call t dirs rs) :
    ∀ x ∈ rs, ∀ summary ∈ x.2.summary, ∀ r ∈ summary.results, r.outcome ≠ .unknown := by
  intro x hx
  obtain ⟨u, hr⟩ := h.called x hx
  exact (hcall u x.1 x.2 hr).known

theorem failure?_eq_none : failure? rs = none ↔ ∀ x ∈ rs, x.2.error = none := by
  simp only [failure?, List.findSome?_eq_none_iff, Option.map_eq_none_iff]

theorem quiet_iff_totals
    (hknown : ∀ x ∈ rs, ∀ summary ∈ x.2.summary, ∀ r ∈ summary.results, r.outcome ≠ .unknown) :
    (∀ x ∈ rs, x.2.Quiet) ↔
      failure? rs = none ∧ (totals rs).failed = 0 ∧ (totals rs).updated = 0 := by
  rw [failure?_eq_none, totals, Totals.ofSummaries_eq_zero]
  constructor
  · intro h
    refine ⟨fun x hx => (h x hx).1, ?_⟩
    intro summary hsummary r hr
    obtain ⟨x, hx, hsome⟩ := List.mem_filterMap.mp hsummary
    rw [(h x hx).2 summary hsome r hr]
    simp
  · rintro ⟨herrors, hall⟩ x hx
    refine ⟨herrors x hx, ?_⟩
    intro summary hsummary r hr
    obtain ⟨hfailed, hupdated⟩ := hall summary (List.mem_filterMap.mpr ⟨x, hx, hsummary⟩) r hr
    have hne := hknown x hx summary hsummary r hr
    cases ho : r.outcome with
    | unchanged => rfl
    | updated => exact absurd ho hupdated
    | failed => exact absurd ho hfailed
    | unknown => exact absurd ho hne

end Judged

end Batch

/-! ### The two commands -/

namespace CommandLine

variable {s : Surroundings} {g : Given} {checkOnly : Bool} {c : Converter} {dirs : List Text}

/-- The converter and the directories of a conversion, unless the settings or the options are
refused. -/
def prepared (s : Surroundings) (g : Given) (checkOnly : Bool) : Option (Converter × List Text) :=
  match settings s g with
  | (.error _, _) => none
  | (.ok config, _) =>
    match Converter.ofOptions (options s.cwd config g checkOnly) with
    | .error _ => none
    | .ok c => some (c, directories config g)

/-- How a conversion ends after some runs. -/
def verdict (checkOnly : Bool) (rs : List (Text × Conversion.Run)) : Option Error :=
  match Batch.failure? rs with
  | some (dir, e) => some (.converting dir e)
  | none => ending checkOnly (Batch.totals rs)

theorem converted_of_none (h : prepared s g checkOnly = none) :
    (converted s g checkOnly).error ≠ none ∧ (converted s g checkOnly).tree = s.tree := by
  obtain ⟨r, events, hsettings⟩ : ∃ r events, settings s g = (r, events) := ⟨_, _, rfl⟩
  simp only [prepared, hsettings] at h
  simp only [converted, conversion, hsettings]
  cases r with
  | error e => exact ⟨by simp, rfl⟩
  | ok config =>
    cases hc : Converter.ofOptions (options s.cwd config g checkOnly) with
    | error e => simp [hc]
    | ok c => simp [hc] at h

theorem converted_of_some (h : prepared s g checkOnly = some (c, dirs)) :
    (converted s g checkOnly).error =
        verdict checkOnly (Batch.runs c s.cancel s.cwd s.tree dirs) ∧
      (converted s g checkOnly).tree =
        Batch.left s.tree (Batch.runs c s.cancel s.cwd s.tree dirs) := by
  obtain ⟨r, events, hsettings⟩ : ∃ r events, settings s g = (r, events) := ⟨_, _, rfl⟩
  simp only [prepared, hsettings] at h
  simp only [converted, conversion, hsettings]
  cases r with
  | error e => cases h
  | ok config =>
    cases hc : Converter.ofOptions (options s.cwd config g checkOnly) with
    | error e => simp [hc] at h
    | ok c' =>
      simp only [hc, Option.some.injEq, Prod.mk.injEq] at h
      obtain ⟨rfl, rfl⟩ := h
      simp only [hc, convertWith, verdict]
      cases Batch.failure? (Batch.runs c' s.cancel s.cwd s.tree (directories config g)) with
      | none => exact ⟨rfl, rfl⟩
      | some f => exact ⟨rfl, rfl⟩

theorem ofOptions_dryRun (o : Options) (b : Bool) :
    Converter.ofOptions { o with dryRun := b } =
      (Converter.ofOptions o).map fun c => { c with dryRun := b } := by
  unfold Converter.ofOptions
  cases o.files with
  | none => rfl
  | some files =>
    simp only
    split
    · rfl
    · cases Glob.validate o.exclude with
      | error e => rfl
      | ok u => rfl

theorem prepared_check (s : Surroundings) (g : Given) :
    prepared s g true =
      (prepared s g false).map fun p => ({ p.1 with dryRun := true }, p.2) := by
  obtain ⟨r, events, hsettings⟩ : ∃ r events, settings s g = (r, events) := ⟨_, _, rfl⟩
  simp only [prepared, hsettings]
  cases r with
  | error e => rfl
  | ok config =>
    have hoptions : options s.cwd config g true =
        { options s.cwd config g false with dryRun := true } := rfl
    simp only [hoptions, ofOptions_dryRun]
    cases Converter.ofOptions (options s.cwd config g false) with
    | error e => rfl
    | ok c => rfl

theorem verdict_check {rs : List (Text × Conversion.Run)} :
    verdict true rs = none ↔ Batch.failure? rs = none ∧ (Batch.totals rs).failed = 0 ∧
      (Batch.totals rs).updated = 0 := by
  unfold verdict ending
  cases Batch.failure? rs with
  | some f => simp
  | none =>
    by_cases hfailed : 0 < (Batch.totals rs).failed
    · simp [hfailed]
      omega
    · by_cases hupdated : 0 < (Batch.totals rs).updated
      · simp [hfailed, hupdated]
        omega
      · simp [hfailed, hupdated]
        omega

theorem verdict_convert {rs : List (Text × Conversion.Run)} :
    verdict false rs = none ↔ Batch.failure? rs = none ∧ (Batch.totals rs).failed = 0 := by
  unfold verdict ending
  cases Batch.failure? rs with
  | some f => simp
  | none =>
    by_cases hfailed : 0 < (Batch.totals rs).failed
    · simp [hfailed]
      omega
    · simp [hfailed]
      omega

theorem verdict_iff {check convert : FileTree → Text → Conversion.Run → Prop} {cwd : Location}
    {t : FileTree} {checks converts : List (Text × Conversion.Run)}
    (hcheck : ∀ t dir r, check t dir r →
      Conversion.Judged { c with dryRun := true } cwd t dir r)
    (hconvert : ∀ t dir r, convert t dir r → Conversion.Judged c cwd t dir r)
    (h : Batch.Follows check t dirs checks) (h' : Batch.Follows convert t dirs converts) :
    verdict true checks = none ↔
      verdict false converts = none ∧ (Batch.totals converts).updated = 0 := by
  have hsettled : (∀ dir ∈ dirs, Conversion.Settled { c with dryRun := true } cwd t dir) ↔
      ∀ dir ∈ dirs, Conversion.Settled c cwd t dir := by
    simp only [Conversion.settled_dryRun]
  rw [verdict_check, verdict_convert, ← Batch.quiet_iff_totals (h.known hcheck),
    h.quiet_iff hcheck, hsettled, ← h'.quiet_iff hconvert,
    Batch.quiet_iff_totals (h'.known hconvert), and_assoc]

/-- A check leaves the tree as it is, and it returns no error exactly when converting from the same
tree returns none and updates no file. This is so for every order in which workers take their
steps, in the check and in the conversion alike. -/
theorem check_gates_convert (s : Surroundings) (g : Given) (hcancel : s.cancel = .never) :
    (converted s g true).tree = s.tree ∧
      ((converted s g true).error = none ↔ (converted s g false).error = none ∧
        ∃ c dirs, prepared s g false = some (c, dirs) ∧
          (Batch.totals (Batch.runs c s.cancel s.cwd s.tree dirs)).updated = 0) ∧
      ∀ c c' dirs dirs' checks converts, prepared s g true = some (c', dirs') →
        prepared s g false = some (c, dirs) →
        Batch.Follows (fun t dir r => ∃ faults, Conversion.Called c' faults s.cwd t dir false r)
          s.tree dirs' checks →
        Batch.Follows (fun t dir r => ∃ faults, Conversion.Called c faults s.cwd t dir false r)
          s.tree dirs converts →
        Batch.left s.tree checks = s.tree ∧
          (verdict true checks = none ↔
            verdict false converts = none ∧ (Batch.totals converts).updated = 0) := by
  cases hprepared : prepared s g false with
  | none =>
    have hcheck : prepared s g true = none := by rw [prepared_check, hprepared]; rfl
    obtain ⟨herror, htree⟩ := converted_of_none hcheck
    refine ⟨htree, ⟨fun h => absurd h herror, ?_⟩, by simp⟩
    rintro ⟨-, c, dirs, hsome, -⟩
    cases hsome
  | some p =>
    obtain ⟨c, dirs⟩ := p
    have hcheck : prepared s g true = some ({ c with dryRun := true }, dirs) := by
      rw [prepared_check, hprepared]
      rfl
    obtain ⟨herror, htree⟩ := converted_of_some hcheck
    obtain ⟨herror', -⟩ := converted_of_some hprepared
    have hrun : ∀ (c : Converter) (t : FileTree) dir r, r = Conversion.run c .never t s.cwd dir →
        Conversion.Judged c s.cwd t dir r := by
      rintro c t dir r rfl
      exact Conversion.run_judged c s.cwd t dir
    rw [hcancel] at herror herror' htree ⊢
    refine ⟨?_, ?_, ?_⟩
    · rw [htree]
      exact (Batch.runs_follows _ s.cwd s.tree dirs).left_eq (hrun _) rfl
    · rw [herror, herror', verdict_iff (hrun _) (hrun c) (Batch.runs_follows _ s.cwd s.tree dirs)
        (Batch.runs_follows c s.cwd s.tree dirs)]
      simp
    · intro c₁ c₂ dirs₁ dirs₂ checks converts h₂ h₁ hchecks hconverts
      rw [hcheck] at h₂
      cases h₂
      cases h₁
      have hcalled : ∀ (c : Converter) (t : FileTree) dir r,
          (∃ faults, Conversion.Called c faults s.cwd t dir false r) →
            Conversion.Judged c s.cwd t dir r := by
        intro c t dir r h
        obtain ⟨faults, h⟩ := h
        exact h.judged
      exact ⟨hchecks.left_eq (hcalled _) rfl, verdict_iff (hcalled _) (hcalled c) hchecks hconverts⟩

/-- A package that is reached through a link as well, with nothing to change. -/
def linkedSurroundings : Surroundings where
  tree :=
    { entries :=
        [([['p']], .directory),
          ([['p'], Package.marker], .file [] 0o644),
          ([['p'], "a.py".toList], .file (Utf8.encode "from p.b import c\r\n".toList) 0o644),
          ([['q']], .link ['p'])]
      nodup := by decide }
  cwd := []
  env := []
  build := ⟨[], [], [], [], false⟩
  terminal := ⟨false⟩
  cancel := .never

def linkedArguments : Given :=
  { Given.nothing with workers := some 2, arguments := [['p'], ['p'], ['q']] }

theorem check_gates_convert_linked :
    (converted linkedSurroundings linkedArguments true).error = none ∧
      (converted linkedSurroundings linkedArguments true).tree = linkedSurroundings.tree ∧
      (converted linkedSurroundings linkedArguments false).error = none := by
  have hok : (converted linkedSurroundings linkedArguments true).error = none := by
    decide +kernel
  obtain ⟨htree, hiff, -⟩ := check_gates_convert linkedSurroundings linkedArguments rfl
  exact ⟨hok, htree, (hiff.mp hok).1⟩

end CommandLine

end AbsoluteImports
