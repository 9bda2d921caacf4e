import AbsoluteImports.Proofs.Change
import AbsoluteImports.Proofs.ImportLine.Grammar
import AbsoluteImports.Proofs.Text.Cutting

/-!
# The lines of a document

A document is cut after each line feed and keeps every terminator. Making its imports absolute
changes lines, never their number, as long as the package has no line feed in it: the pieces of
the new text are the pieces of the old one with some lines replaced, and cutting the new text
gives the new lines with the terminators of the old ones.
-/

namespace AbsoluteImports

/-! ### Lines that have been made absolute -/

theorem lineFeed_not_mem_absoluteLine {package line : Text} (hpackage : '\n' ∉ package)
    (hline : '\n' ∉ line) : '\n' ∉ absoluteLine package line := by
  unfold absoluteLine
  cases h : ImportLine.absolute? package line with
  | none => exact hline
  | some text =>
    obtain ⟨v, hv, -, rfl, -⟩ := absolute?_eq_some_iff.mp h
    obtain ⟨blanks, gap, rest, heq, -⟩ := (ImportLine.Grammar.of_parse? hline hv).parts
    rw [heq] at hline
    simp only [List.mem_append, not_or] at hline
    obtain ⟨⟨⟨⟨⟨⟨⟨⟨⟨hindent, -⟩, -⟩, hmodule⟩, -⟩, -⟩, -⟩, himported⟩, hcomment⟩, -⟩ := hline
    have htarget : '\n' ∉ v.target package := by
      unfold ImportLine.target
      split
      · exact hpackage
      · simp [hpackage, hmodule]
    simp [ImportLine.absolute, hindent, htarget, himported, hcomment]

theorem absoluteLine_ne_nil {package line : Text} (h : line ≠ []) :
    absoluteLine package line ≠ [] := by
  unfold absoluteLine
  cases hs : ImportLine.absolute? package line with
  | none => exact h
  | some text =>
    obtain ⟨v, -, -, rfl, -⟩ := absolute?_eq_some_iff.mp hs
    simp [ImportLine.absolute]

theorem getLast?_of_absoluteLine {package line : Text} (hline : '\n' ∉ line)
    (h : (absoluteLine package line).getLast? = some '\r') : line.getLast? = some '\r' := by
  unfold absoluteLine at h
  cases hs : ImportLine.absolute? package line with
  | none => rwa [hs] at h
  | some text =>
    rw [hs, Option.getD_some] at h
    obtain ⟨v, hv, -, rfl, -⟩ := absolute?_eq_some_iff.mp hs
    obtain ⟨blanks, gap, rest, heq, -, -, -, -, -, ⟨hne, -, -, htight⟩, hrest⟩ :=
      (ImportLine.Grammar.of_parse? hline hv).parts
    have hcarriage : Text.isBlank '\r' = true := by decide
    rcases hrest with ⟨hcomment, -⟩ | ⟨⟨w, r, hcomment, -⟩, rfl⟩
    · -- the imported names come last, and white space is no part of them
      rw [ImportLine.absolute, hcomment, List.append_nil, List.getLast?_append,
        List.getLast?_eq_some_getLast hne, Option.some_or, ← List.getLast?_eq_some_getLast hne] at h
      rw [htight '\r' h] at hcarriage
      cases hcarriage
    · have hlast : v.comment ≠ [] := by simp [hcomment]
      rw [ImportLine.absolute, List.getLast?_append, List.getLast?_eq_some_getLast hlast,
        Option.some_or] at h
      rw [heq, List.append_nil, List.getLast?_append, List.getLast?_eq_some_getLast hlast,
        Option.some_or, h]

theorem head?_absoluteLine (package : Text) {line : Text} (hline : '\n' ∉ line) :
    (absoluteLine package line).head? = line.head? := by
  unfold absoluteLine
  cases hs : ImportLine.absolute? package line with
  | none => rfl
  | some text =>
    obtain ⟨v, hv, -, rfl, -⟩ := absolute?_eq_some_iff.mp hs
    obtain ⟨blanks, gap, rest, heq, -⟩ := (ImportLine.Grammar.of_parse? hline hv).parts
    have hopen : v.indent ++ "from ".toList ≠ [] := by simp
    obtain ⟨c, open', hcons⟩ := List.exists_cons_of_ne_nil hopen
    rw [heq, Option.getD_some, ImportLine.absolute, hcons]
    rfl

namespace Document

/-! ### Cutting a text -/

/-- Lines with their terminators: a last line that has none is not empty, and a line feed that
stands alone follows no carriage return. -/
inductive Cut : List (Text × Text) → Prop
  | nil : Cut []
  | last (line : Text) (hne : line ≠ []) (hline : '\n' ∉ line) : Cut [(line, [])]
  | cons (line ending : Text) {rest : List (Text × Text)} (hline : '\n' ∉ line)
      (hending : ending = ['\n'] ∨ ending = ['\r', '\n'])
      (hreturn : ending = ['\n'] → line.getLast? ≠ some '\r') (hrest : Cut rest) :
      Cut ((line, ending) :: rest)

theorem flatMap_cut (text : Text) : (cut text).flatMap (fun p => p.1 ++ p.2) = text := by
  fun_induction cut text with
  | case1 => rfl
  | case2 r ih => rw [List.flatMap_cons, ih]; rfl
  | case3 r ih => rw [List.flatMap_cons, ih]; rfl
  | case4 c r hfeed hreturn hnil ih =>
    rw [hnil] at ih
    rw [← ih]
    rfl
  | case5 c r hfeed hreturn line ending rest hcons ih =>
    rw [hcons, List.flatMap_cons] at ih
    rw [List.flatMap_cons, ← ih]
    simp

theorem cut_cut (text : Text) : Cut (cut text) := by
  fun_induction cut text with
  | case1 => exact .nil
  | case2 r ih => exact .cons [] ['\n'] (by simp) (.inl rfl) (by simp) ih
  | case3 r ih => exact .cons [] ['\r', '\n'] (by simp) (.inr rfl) (by simp) ih
  | case4 c r hfeed hreturn hnil ih =>
    exact .last [c] (by simp) (by simpa using Ne.symm hfeed)
  | case5 c r hfeed hreturn line ending rest hcons ih =>
    have hline : ∀ line : Text, '\n' ∉ line → '\n' ∉ c :: line := by
      intro line hline
      simpa [hline] using Ne.symm hfeed
    have htext := flatMap_cut r
    rw [hcons] at ih htext
    cases ih with
    | last line hne h => exact .last (c :: line) (by simp) (hline line h)
    | cons line ending h hending hlast hrest =>
      refine .cons (c :: line) ending (hline line h) hending ?_ hrest
      intro he
      cases line with
      | nil =>
        -- the line feed follows at once, so this is no carriage return
        subst he
        intro hc
        cases hc
        exact hreturn _ rfl htext.symm
      | cons d line =>
        rw [List.getLast?_cons_cons]
        exact hlast he

theorem Cut.isCut {parts : List (Text × Text)} (h : Cut parts) {f : Text → Text}
    (hfeed : ∀ line, '\n' ∉ line → '\n' ∉ f line) (hne : ∀ line, line ≠ [] → f line ≠ []) :
    IsCut (· == '\n') (parts.map fun p => f p.1 ++ p.2) := by
  have hplain : ∀ s : Text, '\n' ∉ s → ∀ c ∈ s, (c == '\n') = false := by
    intro s hs c hc
    exact beq_eq_false_iff_ne.mpr fun he => hs (he ▸ hc)
  induction h with
  | nil => exact .nil
  | last line hline hfree =>
    have hlast := IsCut.last (f line) (hne line hline) (hplain _ (hfeed line hfree))
    simpa only [List.map_cons, List.map_nil, List.append_nil] using hlast
  | cons line ending hfree hending _ _ ih =>
    rcases hending with rfl | rfl
    · exact .cons (f line) '\n' (hplain _ (hfeed line hfree)) (by decide) ih
    · have hcarriage : '\n' ∉ f line ++ ['\r'] := by simp [hfeed line hfree]
      have hcut := IsCut.cons (f line ++ ['\r']) '\n' (hplain _ hcarriage) (by decide) ih
      rwa [List.append_assoc] at hcut

theorem cutAfter_text (text : Text) :
    cutAfter (· == '\n') text = (cut text).map fun p => p.1 ++ p.2 := by
  have hcut := (cut_cut text).isCut (f := id) (fun _ h => h) (fun _ h => h)
  have hpieces := hcut.cutAfter_flatten
  simp only [id_eq, ← List.flatMap_def, flatMap_cut] at hpieces
  exact hpieces

theorem cutAfter_absoluteText {package : Text} (hpackage : '\n' ∉ package) (text : Text) :
    cutAfter (· == '\n') (absoluteText package text) =
      (cut text).map fun p => absoluteLine package p.1 ++ p.2 := by
  have hcut := (cut_cut text).isCut (f := absoluteLine package)
    (fun _ h => lineFeed_not_mem_absoluteLine hpackage h) (fun _ h => absoluteLine_ne_nil h)
  have hpieces := hcut.cutAfter_flatten
  rw [← List.flatMap_def] at hpieces
  exact hpieces

/-! ### Cutting a text again -/

theorem cut_cons {c : Char} {r : Text} (hfeed : c ≠ '\n')
    (hreturn : c = '\r' → r.head? ≠ some '\n') :
    cut (c :: r) = match cut r with
      | [] => [([c], [])]
      | (line, ending) :: rest => (c :: line, ending) :: rest := by
  refine cut.eq_4 c r (by simpa using hfeed) ?_
  intro r' hc hr
  exact hreturn hc (by rw [hr]; rfl)

theorem cut_line_append {line ending r : Text} (hline : '\n' ∉ line)
    (hending : ending = ['\n'] ∨ ending = ['\r', '\n'])
    (hreturn : ending = ['\n'] → line.getLast? ≠ some '\r') :
    cut (line ++ ending ++ r) = (line, ending) :: cut r := by
  induction line with
  | nil =>
    rcases hending with rfl | rfl
    · rfl
    · rfl
  | cons c line ih =>
    have hfeed : c ≠ '\n' := fun hc => hline (by simp [hc])
    have hrest : '\n' ∉ line := fun hm => hline (by simp [hm])
    have hnext : c = '\r' → (line ++ ending ++ r).head? ≠ some '\n' := by
      rintro rfl
      cases line with
      | nil =>
        rcases hending with rfl | rfl
        · exact absurd rfl (hreturn rfl)
        · simp
      | cons d line =>
        have hd : d ≠ '\n' := fun hd => hrest (by simp [hd])
        simpa using hd
    have hlast : ending = ['\n'] → line.getLast? ≠ some '\r' := by
      intro he
      cases line with
      | nil => simp
      | cons d line =>
        have hreturn' := hreturn he
        rwa [List.getLast?_cons_cons] at hreturn'
    rw [List.cons_append, List.cons_append, cut_cons hfeed hnext, ih hrest hlast]

theorem cut_line {line : Text} (hne : line ≠ []) (hline : '\n' ∉ line) :
    cut line = [(line, [])] := by
  induction line with
  | nil => exact absurd rfl hne
  | cons c line ih =>
    have hfeed : c ≠ '\n' := fun hc => hline (by simp [hc])
    have hrest : '\n' ∉ line := fun hm => hline (by simp [hm])
    have hnext : line.head? ≠ some '\n' := fun hh => hrest (List.mem_of_mem_head? hh)
    rw [cut_cons hfeed fun _ => hnext]
    cases line with
    | nil => rfl
    | cons d line => rw [ih (by simp) hrest]

theorem Cut.cut_flatMap {parts : List (Text × Text)} (h : Cut parts) :
    cut (parts.flatMap fun p => p.1 ++ p.2) = parts := by
  induction h with
  | nil => rfl
  | last line hne hline =>
    rw [List.flatMap_singleton, List.append_nil]
    exact cut_line hne hline
  | cons line ending hline hending hreturn _ ih =>
    rw [List.flatMap_cons, cut_line_append hline hending hreturn, ih]

theorem Cut.map {parts : List (Text × Text)} (h : Cut parts) {f : Text → Text}
    (hfeed : ∀ line, '\n' ∉ line → '\n' ∉ f line) (hne : ∀ line, line ≠ [] → f line ≠ [])
    (hlast : ∀ line, '\n' ∉ line → (f line).getLast? = some '\r' → line.getLast? = some '\r') :
    Cut (parts.map fun p => (f p.1, p.2)) := by
  induction h with
  | nil => exact .nil
  | last line hline hfree => exact .last (f line) (hne line hline) (hfeed line hfree)
  | cons line ending hfree hending hreturn _ ih =>
    exact .cons (f line) ending (hfeed line hfree) hending
      (fun he hr => hreturn he (hlast line hfree hr)) ih

/-- Cutting a text with its imports made absolute gives the lines made absolute, each with the
terminator that it had. -/
theorem cut_absoluteText {package : Text} (hpackage : '\n' ∉ package) (text : Text) :
    cut (absoluteText package text) = (cut text).map fun p => (absoluteLine package p.1, p.2) := by
  have hcut := (cut_cut text).map (f := absoluteLine package)
    (fun _ h => lineFeed_not_mem_absoluteLine hpackage h) (fun _ h => absoluteLine_ne_nil h)
    (fun _ h => getLast?_of_absoluteLine h)
  have htext := hcut.cut_flatMap
  rwa [List.flatMap_map] at htext

theorem head?_absoluteText (package text : Text) :
    (absoluteText package text).head? = text.head? := by
  have htext := flatMap_cut text
  have hcut := cut_cut text
  rw [absoluteText]
  generalize cut text = parts at htext hcut
  subst htext
  have hfirst : ∀ (line rest rest' : Text), '\n' ∉ line → (line = [] → rest'.head? = rest.head?) →
      (absoluteLine package line ++ rest').head? = (line ++ rest).head? := by
    intro line rest rest' hline hnil
    have hhead := head?_absoluteLine package hline
    cases line with
    | nil =>
      have hempty : absoluteLine package [] = [] := List.head?_eq_none_iff.mp hhead
      rw [hempty]
      exact hnil rfl
    | cons c line => rw [List.head?_append, hhead, List.head?_append]; rfl
  cases hcut with
  | nil => rfl
  | last line hne hline =>
    rw [List.flatMap_cons, List.flatMap_cons, List.append_assoc, List.append_assoc]
    exact hfirst line _ _ hline fun he => absurd he hne
  | cons line ending hline hending =>
    rw [List.flatMap_cons, List.flatMap_cons, List.append_assoc, List.append_assoc]
    refine hfirst line _ _ hline fun _ => ?_
    rcases hending with rfl | rfl
    · rfl
    · rfl

/-! ### Pieces without a change -/

/-- A piece whose line is not among the changes is kept. -/
theorem getElem?_cutAfter_absoluteText {package : Text} (hpackage : '\n' ∉ package) (text : Text)
    {i : Nat} (hi : i ∉ (Change.list package ((cut text).map Prod.fst)).map Change.index) :
    (cutAfter (· == '\n') (absoluteText package text))[i]? =
      (cutAfter (· == '\n') text)[i]? := by
  rw [cutAfter_absoluteText hpackage, cutAfter_text, List.getElem?_map, List.getElem?_map]
  cases hp : (cut text)[i]? with
  | none => rfl
  | some p =>
    have hline : ((cut text).map Prod.fst)[i]? = some p.1 := by rw [List.getElem?_map, hp]; rfl
    have hkept : absoluteLine package p.1 = p.1 := by
      refine Classical.byContradiction fun hne => hi ?_
      exact Change.mem_index_list.mpr ⟨p.1, hline, hne⟩
    rw [Option.map_some, Option.map_some, hkept]

end Document

end AbsoluteImports
