import AbsoluteImports.Text.Basic

/-!
# White space and searching

What trimming, searching and cutting give, said of the whole text: a text is its trimmed form
with white space around it, and a search finds a piece exactly when the piece is there.
-/

namespace AbsoluteImports.Text

/-! ### Runs of characters -/

/-- A text that no character of a kind comes first in. -/
def Stops (p : Char → Bool) (s : Text) : Prop := ∀ c ∈ s.head?, p c = false

variable {p : Char → Bool}

theorem stops_nil : Stops p [] := by simp [Stops]

theorem stops_cons {c : Char} {s : Text} : Stops p (c :: s) ↔ p c = false := by simp [Stops]

theorem stops_append {a b : Text} (h : a ≠ []) : Stops p (a ++ b) ↔ Stops p a := by
  obtain ⟨c, r, rfl⟩ := List.exists_cons_of_ne_nil h
  simp [Stops]

theorem stops_of_all {q : Char → Bool} (hpq : ∀ c, q c = true → p c = false) {s : Text}
    (h : ∀ c ∈ s, q c = true) : Stops p s := by
  intro c hc
  exact hpq c (h c (List.mem_of_mem_head? hc))

theorem Stops.imp {q : Char → Bool} {s : Text} (hs : Stops p s)
    (h : ∀ c, p c = false → q c = false) : Stops q s := fun c hc => h c (hs c hc)

theorem stops_dropWhile (s : Text) : Stops p (s.dropWhile p) := by
  induction s with
  | nil => exact stops_nil
  | cons c r ih =>
    rw [List.dropWhile_cons]
    split
    · exact ih
    · rename_i h
      exact stops_cons.mpr (by simpa using h)

theorem takeWhile_eq_nil {s : Text} (h : Stops p s) : s.takeWhile p = [] := by
  cases s with
  | nil => rfl
  | cons c r => simp [stops_cons.mp h]

theorem dropWhile_eq_self {s : Text} (h : Stops p s) : s.dropWhile p = s := by
  cases s with
  | nil => rfl
  | cons c r => simp [stops_cons.mp h]

theorem takeWhile_append_stops {a b : Text} (ha : ∀ c ∈ a, p c = true) (hb : Stops p b) :
    (a ++ b).takeWhile p = a := by
  rw [List.takeWhile_append_of_pos ha, takeWhile_eq_nil hb, List.append_nil]

theorem dropWhile_append_stops {a b : Text} (ha : ∀ c ∈ a, p c = true) (hb : Stops p b) :
    (a ++ b).dropWhile p = b := by
  rw [List.dropWhile_append_of_pos ha, dropWhile_eq_self hb]

theorem run_unique {a b s t : Text} (ha : ∀ c ∈ a, p c = true) (hs : Stops p s)
    (hb : ∀ c ∈ b, p c = true) (ht : Stops p t) (h : a ++ s = b ++ t) : a = b ∧ s = t := by
  have htake := congrArg (List.takeWhile p) h
  have hdrop := congrArg (List.dropWhile p) h
  rw [takeWhile_append_stops ha hs, takeWhile_append_stops hb ht] at htake
  rw [dropWhile_append_stops ha hs, dropWhile_append_stops hb ht] at hdrop
  exact ⟨htake, hdrop⟩

theorem of_mem_takeWhile {s : Text} {c : Char} (h : c ∈ s.takeWhile p) : p c = true :=
  List.all_eq_true.mp List.all_takeWhile c h

/-! ### Trimming -/

theorem allBlank_iff {s : Text} : allBlank s = true ↔ ∀ c ∈ s, isBlank c = true := by
  simp [allBlank]

theorem allBlank_append {a b : Text} :
    allBlank (a ++ b) = true ↔ allBlank a = true ∧ allBlank b = true := by
  simp [allBlank]

/-- A text without white space at its end. -/
def Tight (s : Text) : Prop := ∀ c ∈ s.getLast?, isBlank c = false

theorem tight_nil : Tight [] := by simp [Tight]

theorem tight_cons {c : Char} {s : Text} (h : s ≠ []) : Tight (c :: s) ↔ Tight s := by
  simp only [Tight, List.getLast?_cons_of_ne_nil h]

theorem tight_singleton {c : Char} : Tight [c] ↔ isBlank c = false := by simp [Tight]

theorem tight_append {a b : Text} (h : b ≠ []) : Tight (a ++ b) ↔ Tight b := by
  induction a with
  | nil => rfl
  | cons c r ih => rw [List.cons_append, tight_cons (by simp [h]), ih]

theorem Tight.not_allBlank {s : Text} (h : Tight s) (hne : s ≠ []) : allBlank s = false := by
  have hlast := h (s.getLast hne) (List.getLast?_eq_some_getLast hne)
  refine Bool.eq_false_iff.mpr fun hall => ?_
  rw [allBlank_iff.mp hall _ (List.getLast_mem hne)] at hlast
  cases hlast

theorem exists_trimRight (s : Text) : ∃ t, allBlank t = true ∧ s = trimRight s ++ t := by
  induction s with
  | nil => exact ⟨[], rfl, rfl⟩
  | cons c r ih =>
    rw [trimRight]
    split
    · rename_i h
      exact ⟨c :: r, h, rfl⟩
    · obtain ⟨t, ht, hr⟩ := ih
      exact ⟨t, ht, by rw [List.cons_append, ← hr]⟩

theorem trimRight_append_blank {s t : Text} (hs : Tight s) (ht : allBlank t = true) :
    trimRight (s ++ t) = s := by
  induction s with
  | nil =>
    cases t with
    | nil => rfl
    | cons c r =>
      rw [List.nil_append, trimRight, if_pos ht]
  | cons c r ih =>
    have hall : allBlank (c :: r ++ t) = false := by
      refine Bool.eq_false_iff.mpr fun h => ?_
      have hcr := (allBlank_append.mp h).1
      rw [hs.not_allBlank (by simp)] at hcr
      cases hcr
    rw [List.cons_append] at hall ⊢
    rw [trimRight, if_neg (by simp [hall])]
    by_cases hr : r = []
    · subst hr
      rw [ih tight_nil]
    · rw [ih ((tight_cons hr).mp hs)]

theorem trimRight_eq_self {s : Text} (h : Tight s) : trimRight s = s := by
  have ht := trimRight_append_blank h (t := []) rfl
  rwa [List.append_nil] at ht

/-! ### Searching -/

theorem stripStart?_eq_some {w s r : Text} : stripStart? w s = some r ↔ s = w ++ r := by
  induction w generalizing s with
  | nil => simp [stripStart?]
  | cons c w ih =>
    cases s with
    | nil => simp [stripStart?]
    | cons d s =>
      rw [stripStart?]
      split
      · rename_i h
        rw [ih, h, List.cons_append, List.cons.injEq]
        simp
      · rename_i h
        simp [Ne.symm h]

theorem holds_iff {w s : Text} : holds w s = true ↔ w <:+: s := by
  induction s with
  | nil => simp [holds]
  | cons c r ih =>
    rw [holds, Bool.or_eq_true, List.isPrefixOf_iff_prefix, ih, List.infix_cons_iff]

theorem endsWith_trimRight_iff {c : Char} (hc : isBlank c = false) {s : Text} :
    endsWith [c] (trimRight s) = true ↔
      ∃ before after, s = before ++ c :: after ∧ allBlank after = true := by
  rw [endsWith, List.isSuffixOf_iff_suffix]
  constructor
  · rintro ⟨before, hb⟩
    obtain ⟨t, ht, hs⟩ := exists_trimRight s
    exact ⟨before, t, by rw [hs, ← hb, List.append_assoc, List.singleton_append], ht⟩
  · rintro ⟨before, after, rfl, hafter⟩
    have htight : Tight (before ++ [c]) :=
      (tight_append (by simp)).mpr (tight_singleton.mpr hc)
    have htrim := trimRight_append_blank htight hafter
    rw [List.append_assoc, List.singleton_append] at htrim
    exact ⟨before, htrim.symm⟩

end AbsoluteImports.Text
