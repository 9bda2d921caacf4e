import AbsoluteImports.Proofs.Encoding.Rereading

/-!
# The form of documents

`WellFormed` says what lines and terminators look like when a text was cut into them. Every text
is cut into a document of this form, joining gives the text back, and a document of this form is
what cutting its own text gives: cutting and joining are inverse to each other, and the form
leaves out no document that a text can have and lets no other in (`ofText_exact`).
-/

namespace AbsoluteImports.Document

/-- The form of a document that was cut out of a text. -/
structure WellFormed (d : Document) : Prop where
  /-- Every line has its terminator. -/
  length_eq : d.lines.length = d.endings.length
  inner : ∀ ending ∈ d.endings.dropLast, ending = ['\n'] ∨ ending = ['\r', '\n']
  /-- Only the last line can be without a terminator. -/
  last : ∀ ending ∈ d.endings.getLast?,
    ending = ['\n'] ∨ ending = ['\r', '\n'] ∨ ending = []
  unbroken : ∀ line ∈ d.lines, '\n' ∉ line
  /-- A carriage return before a line feed is part of the terminator. -/
  closed : ∀ p ∈ d.lines.zip d.endings, p.2 = ['\n'] → p.1.getLast? ≠ some '\r'
  unclosed : ∀ p ∈ d.lines.zip d.endings, p.2 = [] → p.1 ≠ []

/-! ### Lines with their terminators -/

theorem Cut.of_mem {parts : List (Text × Text)} (h : Cut parts) :
    ∀ p ∈ parts, '\n' ∉ p.1 ∧ (p.2 = ['\n'] ∧ p.1.getLast? ≠ some '\r' ∨ p.2 = ['\r', '\n'] ∨
      p.2 = [] ∧ p.1 ≠ []) := by
  induction h with
  | nil => simp
  | last line hne hline =>
    intro p hp
    rw [List.mem_singleton.mp hp]
    exact ⟨hline, .inr (.inr ⟨rfl, hne⟩)⟩
  | cons line ending hline hending hreturn _ ih =>
    intro p hp
    rcases List.mem_cons.mp hp with rfl | hp
    · rcases hending with rfl | rfl
      · exact ⟨hline, .inl ⟨rfl, hreturn rfl⟩⟩
      · exact ⟨hline, .inr (.inl rfl)⟩
    · exact ih p hp

theorem Cut.of_forall {parts : List (Text × Text)}
    (hinner : ∀ ending ∈ (parts.map Prod.snd).dropLast, ending ≠ [])
    (hparts : ∀ p ∈ parts, '\n' ∉ p.1 ∧ (p.2 = ['\n'] ∧ p.1.getLast? ≠ some '\r' ∨
      p.2 = ['\r', '\n'] ∨ p.2 = [] ∧ p.1 ≠ [])) : Cut parts := by
  induction parts with
  | nil => exact .nil
  | cons p rest ih =>
    obtain ⟨line, ending⟩ := p
    have htail : ∀ x ∈ (rest.map Prod.snd).dropLast, x ≠ [] := by
      intro x hx
      apply hinner
      cases rest with
      | nil => simp at hx
      | cons q rest =>
        rw [List.map_cons, List.map_cons, List.dropLast_cons_cons]
        exact List.mem_cons_of_mem _ hx
    have hrest : Cut rest := ih htail fun p hp => hparts p (List.mem_cons_of_mem _ hp)
    obtain ⟨hline, hending⟩ := hparts _ (List.mem_cons_self ..)
    rcases hending with ⟨rfl, hreturn⟩ | rfl | ⟨rfl, hne⟩
    · exact .cons line _ hline (.inl rfl) (fun _ => hreturn) hrest
    · exact .cons line _ hline (.inr rfl) (by simp) hrest
    · cases rest with
      | nil => exact .last line hne hline
      | cons q rest => exact absurd rfl (hinner [] (by simp))

/-! ### Cutting and joining -/

theorem text_eq_flatMap_zip {d : Document} (h : d.lines.length = d.endings.length) :
    d.text = (d.lines.zip d.endings).flatMap fun p => p.1 ++ p.2 := by
  have hjoined := joined_map id (d.lines.zip d.endings)
  rwa [List.map_id, List.map_fst_zip (Nat.le_of_eq h),
    List.map_snd_zip (Nat.le_of_eq h.symm)] at hjoined

theorem zip_ofText (text : Text) (e : Encoding) :
    (ofText text e).lines.zip (ofText text e).endings = cut text := by
  simp [ofText, List.zip_map']

theorem text_ofText (text : Text) (e : Encoding) : (ofText text e).text = text := by
  rw [text_eq_flatMap_zip (by simp [ofText]), zip_ofText, flatMap_cut]

theorem wellFormed_ofText (text : Text) (e : Encoding) : (ofText text e).WellFormed := by
  have hparts := (cut_cut text).of_mem
  refine ⟨by simp [ofText], (cut_cut text).terminated, ?_, ?_, ?_, ?_⟩
  · intro ending hlast
    obtain ⟨p, hp, rfl⟩ := List.mem_map.mp (List.mem_of_getLast? hlast)
    rcases (hparts p hp).2 with ⟨hfeed, -⟩ | hreturn | ⟨hnone, -⟩
    · exact .inl hfeed
    · exact .inr (.inl hreturn)
    · exact .inr (.inr hnone)
  · intro line hline
    obtain ⟨p, hp, rfl⟩ := List.mem_map.mp hline
    exact (hparts p hp).1
  · rw [zip_ofText]
    intro p hp hfeed
    have hform := (hparts p hp).2
    simp only [hfeed] at hform
    simpa using hform
  · rw [zip_ofText]
    intro p hp hnone
    have hform := (hparts p hp).2
    simp only [hnone] at hform
    simpa using hform

theorem WellFormed.mem_endings {d : Document} (h : d.WellFormed) :
    ∀ ending ∈ d.endings, ending = ['\n'] ∨ ending = ['\r', '\n'] ∨ ending = [] := by
  intro ending hending
  have hne : d.endings ≠ [] := List.ne_nil_of_mem hending
  rw [← List.dropLast_concat_getLast hne, List.mem_append, List.mem_singleton] at hending
  rcases hending with hinner | rfl
  · rcases h.inner ending hinner with hfeed | hreturn
    · exact .inl hfeed
    · exact .inr (.inl hreturn)
  · exact h.last _ (List.getLast?_eq_some_getLast hne)

theorem WellFormed.cut {d : Document} (h : d.WellFormed) : Cut (d.lines.zip d.endings) := by
  apply Cut.of_forall
  · rw [List.map_snd_zip (Nat.le_of_eq h.length_eq.symm)]
    intro ending hinner
    rcases h.inner ending hinner with rfl | rfl
    · simp
    · simp
  · intro p hp
    obtain ⟨hline, hending⟩ := List.of_mem_zip hp
    refine ⟨h.unbroken p.1 hline, ?_⟩
    rcases h.mem_endings p.2 hending with hfeed | hreturn | hnone
    · exact .inl ⟨hfeed, h.closed p hp hfeed⟩
    · exact .inr (.inl hreturn)
    · exact .inr (.inr ⟨hnone, h.unclosed p hp hnone⟩)

theorem WellFormed.ofText_text {d : Document} (h : d.WellFormed) :
    ofText d.text d.encoding = d := by
  rw [ofText, text_eq_flatMap_zip h.length_eq, h.cut.cut_flatMap,
    List.map_fst_zip (Nat.le_of_eq h.length_eq), List.map_snd_zip (Nat.le_of_eq h.length_eq.symm)]

theorem wellFormed_iff {d : Document} : d.WellFormed ↔ ofText d.text d.encoding = d :=
  ⟨WellFormed.ofText_text, fun h => h ▸ wellFormed_ofText d.text d.encoding⟩

instance (d : Document) : Decidable d.WellFormed := decidable_of_iff _ wellFormed_iff.symm

/-- Cutting and joining are inverse to each other: a text is joined again as it was, and the
documents of the right form, and no others, are cut again as they were. -/
theorem ofText_exact :
    (∀ text e, (ofText text e).WellFormed ∧ (ofText text e).text = text ∧
      (ofText text e).encoding = e) ∧
    ∀ d : Document, d.WellFormed ↔ ofText d.text d.encoding = d :=
  ⟨fun text e => ⟨wellFormed_ofText text e, text_ofText text e, rfl⟩, fun _ => wellFormed_iff⟩

/-- The carriage return belongs to the terminator, and a last line is not empty. -/
example : ¬WellFormed ⟨[['a', '\r']], [['\n']], .utf8⟩ ∧ ¬WellFormed ⟨[[]], [[]], .utf8⟩ ∧
    WellFormed ⟨[['\r'], ['\r', 'a']], [['\r', '\n'], []], .utf8⟩ := by
  decide

end AbsoluteImports.Document
