import AbsoluteImports.FileTree.Access

/-!
# Components of paths

Cutting a text at a separator and joining the pieces are inverse to each other. A path joined
to a directory has the components of the directory, cleaned, and then its own.
-/

namespace AbsoluteImports

namespace Text

variable {sep : Char}

/-! ### Cutting at a separator -/

theorem splitAt_cons_sep (s : Text) : splitAt sep (sep :: s) = [] :: splitAt sep s := by
  simp [splitAt]

theorem splitAt_ne_nil (s : Text) : splitAt sep s ≠ [] := by
  cases s with
  | nil => simp [splitAt]
  | cons c r =>
    simp only [splitAt]
    split
    · simp
    · split
      · simp
      · simp

theorem splitAt_cons_of_ne {c : Char} (h : c ≠ sep) {s w : Text} {ws : List Text}
    (hs : splitAt sep s = w :: ws) : splitAt sep (c :: s) = (c :: w) :: ws := by
  simp [splitAt, h, hs]

theorem exists_splitAt_cons (sep : Char) (s : Text) : ∃ w ws, splitAt sep s = w :: ws :=
  List.exists_cons_of_ne_nil (splitAt_ne_nil s)

theorem splitAt_append_sep (a b : Text) :
    splitAt sep (a ++ sep :: b) = splitAt sep a ++ splitAt sep b := by
  induction a with
  | nil => simp [splitAt]
  | cons c r ih =>
    obtain ⟨w, ws, hw⟩ := exists_splitAt_cons sep r
    by_cases h : c = sep
    · subst h
      rw [List.cons_append, splitAt_cons_sep, ih, splitAt_cons_sep, List.cons_append]
    · rw [hw, List.cons_append] at ih
      rw [List.cons_append, splitAt_cons_of_ne h ih, splitAt_cons_of_ne h hw, List.cons_append]

theorem splitAt_of_not_mem {s : Text} (h : sep ∉ s) : splitAt sep s = [s] := by
  induction s with
  | nil => rfl
  | cons c r ih =>
    rw [List.mem_cons, not_or] at h
    exact splitAt_cons_of_ne (Ne.symm h.1) (ih h.2)

theorem not_mem_of_mem_splitAt {s w : Text} (h : w ∈ splitAt sep s) : sep ∉ w := by
  induction s generalizing w with
  | nil =>
    simp only [splitAt, List.mem_singleton] at h
    simp [h]
  | cons c r ih =>
    by_cases hc : c = sep
    · subst hc
      rw [splitAt_cons_sep] at h
      rcases List.mem_cons.mp h with rfl | h
      · simp
      · exact ih h
    · obtain ⟨v, vs, hv⟩ := exists_splitAt_cons sep r
      rw [splitAt_cons_of_ne hc hv] at h
      rcases List.mem_cons.mp h with rfl | h
      · have hv' : sep ∉ v := ih (by simp [hv])
        simp [hv', Ne.symm hc]
      · exact ih (by simp [hv, h])

theorem splitAt_joinWith {ws : List Text} (hne : ws ≠ []) (h : ∀ w ∈ ws, sep ∉ w) :
    splitAt sep (joinWith sep ws) = ws := by
  induction ws with
  | nil => exact absurd rfl hne
  | cons w ws ih =>
    have hw := h w (List.mem_cons_self ..)
    cases ws with
    | nil => exact splitAt_of_not_mem hw
    | cons v vs =>
      have hrest : ∀ x ∈ v :: vs, sep ∉ x := fun x hx => h x (List.mem_cons_of_mem _ hx)
      rw [joinWith, splitAt_append_sep, splitAt_of_not_mem hw, ih (by simp) hrest]
      rfl

theorem joinWith_cons_of_ne_nil (w : Text) {ws : List Text} (h : ws ≠ []) :
    joinWith sep (w :: ws) = w ++ sep :: joinWith sep ws := by
  obtain ⟨v, vs, rfl⟩ := List.exists_cons_of_ne_nil h
  rfl

theorem joinWith_splitAt (s : Text) : joinWith sep (splitAt sep s) = s := by
  induction s with
  | nil => rfl
  | cons c r ih =>
    by_cases h : c = sep
    · subst h
      rw [splitAt_cons_sep, joinWith_cons_of_ne_nil _ (splitAt_ne_nil r), ih]
      rfl
    · obtain ⟨w, ws, hw⟩ := exists_splitAt_cons sep r
      rw [splitAt_cons_of_ne h hw]
      rw [hw] at ih
      cases ws with
      | nil =>
        simp only [joinWith] at ih ⊢
        rw [ih]
      | cons v vs =>
        simp only [joinWith] at ih ⊢
        rw [List.cons_append, ih]

theorem splitAt_injective (sep : Char) {a b : Text} (h : splitAt sep a = splitAt sep b) :
    a = b := by
  have hj := congrArg (joinWith sep) h
  rwa [joinWith_splitAt, joinWith_splitAt] at hj

theorem getLast?_joinWith {ws : List Text} (hne : ws ≠ [])
    (h : ∀ w ∈ ws, w ≠ [] ∧ sep ∉ w) : (joinWith sep ws).getLast? ≠ some sep := by
  induction ws with
  | nil => exact absurd rfl hne
  | cons w ws ih =>
    cases ws with
    | nil =>
      intro hl
      exact (h w (by simp)).2 (List.mem_of_getLast? hl)
    | cons v vs =>
      have hrest : ∀ x ∈ v :: vs, x ≠ [] ∧ sep ∉ x := fun x hx => h x (List.mem_cons_of_mem _ hx)
      have hlast := ih (by simp) hrest
      have hj : joinWith sep (v :: vs) ≠ [] := by
        have hv := (hrest v (by simp)).1
        cases vs with
        | nil => exact hv
        | cons x xs => simp [joinWith]
      rw [joinWith, List.getLast?_append, List.getLast?_cons_of_ne_nil hj]
      cases hl : (joinWith sep (v :: vs)).getLast? with
      | none => exact absurd (List.getLast?_eq_none_iff.mp hl) hj
      | some c =>
        rw [hl] at hlast
        simpa using hlast

end Text

namespace Path

/-! ### Cleaning -/

/-- A name that an entry can have. -/
def ProperName (c : Text) : Prop := c ≠ [] ∧ '/' ∉ c ∧ c ≠ here ∧ c ≠ above

instance (c : Text) : Decidable (ProperName c) :=
  inferInstanceAs (Decidable (c ≠ [] ∧ '/' ∉ c ∧ c ≠ here ∧ c ≠ above))

theorem push_proper {c : Text} (h : ProperName c) (rooted : Bool) (stack : List Text) :
    push rooted stack c = c :: stack := by
  have h1 : ¬(c = [] ∨ c = here) := fun hc => hc.elim h.1 h.2.2.1
  simp only [push, h1, h.2.2.2, ↓reduceIte]

theorem foldl_push_proper {cs : List Text} (h : ∀ c ∈ cs, ProperName c) (rooted : Bool)
    (stack : List Text) : cs.foldl (push rooted) stack = cs.reverse ++ stack := by
  induction cs generalizing stack with
  | nil => rfl
  | cons c cs ih =>
    have hc := h c (List.mem_cons_self ..)
    have hcs : ∀ x ∈ cs, ProperName x := fun x hx => h x (List.mem_cons_of_mem _ hx)
    rw [List.foldl_cons, push_proper hc, ih hcs, List.reverse_cons, List.append_assoc]
    rfl

theorem reduce_append_proper (rooted : Bool) (as : List Text) {cs : List Text}
    (h : ∀ c ∈ cs, ProperName c) : reduce rooted (as ++ cs) = reduce rooted as ++ cs := by
  simp only [reduce, List.foldl_append, foldl_push_proper h, List.reverse_append,
    List.reverse_reverse]

theorem mem_push {rooted : Bool} {stack : List Text} {c x : Text} (h : x ∈ push rooted stack c) :
    x ∈ stack ∨ x = above ∨ (x = c ∧ c ≠ [] ∧ c ≠ here) := by
  simp only [push] at h
  split at h
  · exact .inl h
  · rename_i hc
    split at h
    · split at h
      · split at h
        · exact .inl h
        · exact .inr (.inl (List.mem_singleton.mp h))
      · split at h
        · rcases List.mem_cons.mp h with h | h
          · exact .inr (.inl h)
          · exact .inl h
        · exact .inl (List.mem_cons_of_mem _ h)
    · rcases List.mem_cons.mp h with h | h
      · exact .inr (.inr ⟨h, fun he => hc (.inl he), fun he => hc (.inr he)⟩)
      · exact .inl h

theorem mem_foldl_push {rooted : Bool} {cs stack : List Text} {x : Text}
    (h : x ∈ cs.foldl (push rooted) stack) :
    x ∈ stack ∨ x = above ∨ (x ∈ cs ∧ x ≠ [] ∧ x ≠ here) := by
  induction cs generalizing stack with
  | nil => exact .inl h
  | cons c cs ih =>
    rcases ih h with h | h | h
    · rcases mem_push h with h | h | ⟨rfl, h1, h2⟩
      · exact .inl h
      · exact .inr (.inl h)
      · exact .inr (.inr ⟨List.mem_cons_self .., h1, h2⟩)
    · exact .inr (.inl h)
    · exact .inr (.inr ⟨List.mem_cons_of_mem _ h.1, h.2⟩)

theorem mem_components {p x : Text} (h : x ∈ components p) : x ≠ [] ∧ '/' ∉ x := by
  rw [components, reduce, List.mem_reverse] at h
  rcases mem_foldl_push h with h | rfl | ⟨h, hne, -⟩
  · exact absurd h (by simp)
  · decide
  · exact ⟨hne, Text.not_mem_of_mem_splitAt h⟩

/-! ### A path below a directory -/

theorem steps_render {cs : List Text} (hne : cs ≠ []) (h : ∀ c ∈ cs, c ≠ [] ∧ '/' ∉ c)
    (rooted : Bool) : FileTree.steps (render rooted cs) = cs := by
  have hsplit : Text.splitAt '/' (Text.joinWith '/' cs) = cs :=
    Text.splitAt_joinWith hne fun c hc => (h c hc).2
  have hfilter : cs.filter (· ≠ []) = cs :=
    List.filter_eq_self.mpr fun c hc => by simpa using (h c hc).1
  have hlast := Text.getLast?_joinWith hne h
  cases rooted with
  | true =>
    have hj : Text.joinWith '/' cs ≠ [] := by
      intro hj
      rw [hj] at hsplit
      exact (h [] (by simp [← hsplit, Text.splitAt])).1 rfl
    simp only [FileTree.steps, render, ↓reduceIte, Text.splitAt_cons_sep, hsplit,
      List.getLast?_cons_of_ne_nil hj, hlast, List.append_nil]
    rw [List.filter_cons_of_neg (by simp), hfilter]
  | false =>
    have hemp : cs.isEmpty = false := by simpa using hne
    simp only [FileTree.steps, render, Bool.false_eq_true, ↓reduceIte, hemp, hsplit, hlast,
      List.append_nil, hfilter]

theorem isAbsolute_render {cs : List Text} (hne : cs ≠ []) (h : ∀ c ∈ cs, c ≠ [] ∧ '/' ∉ c)
    (rooted : Bool) : isAbsolute (render rooted cs) = rooted := by
  cases rooted with
  | true => simp [render, isAbsolute]
  | false =>
    obtain ⟨c, rest, rfl⟩ := List.exists_cons_of_ne_nil hne
    obtain ⟨hc, hslash⟩ := h c (List.mem_cons_self ..)
    obtain ⟨a, as, rfl⟩ := List.exists_cons_of_ne_nil hc
    have ha : a ≠ '/' := fun ha => hslash (by simp [ha])
    cases rest with
    | nil => simp [render, isAbsolute, Text.joinWith, ha]
    | cons v vs => simp [render, isAbsolute, Text.joinWith, ha]

variable {root rel : Text}

theorem isAbsolute_append (hroot : root ≠ []) (s : Text) :
    isAbsolute (root ++ s) = isAbsolute root := by
  obtain ⟨a, as, rfl⟩ := List.exists_cons_of_ne_nil hroot
  rfl

theorem components_below (hroot : root ≠ []) (h : ∀ c ∈ Text.splitAt '/' rel, ProperName c) :
    components (root ++ '/' :: rel) = components root ++ Text.splitAt '/' rel := by
  rw [components, isAbsolute_append hroot, Text.splitAt_append_sep, reduce_append_proper _ _ h]
  rfl

theorem join_eq_render (hroot : root ≠ []) (h : ∀ c ∈ Text.splitAt '/' rel, ProperName c) :
    join root rel = render (isAbsolute root) (components root ++ Text.splitAt '/' rel) := by
  have hemp : root.isEmpty = false := by simpa using hroot
  simp only [join, hemp, Bool.false_eq_true, ↓reduceIte, clean, components_below hroot h,
    isAbsolute_append hroot]

theorem steps_join (hroot : root ≠ []) (h : ∀ c ∈ Text.splitAt '/' rel, ProperName c) :
    FileTree.steps (join root rel) = components root ++ Text.splitAt '/' rel ∧
      isAbsolute (join root rel) = isAbsolute root := by
  have hne : components root ++ Text.splitAt '/' rel ≠ [] := by
    simp [Text.splitAt_ne_nil]
  have hall : ∀ c ∈ components root ++ Text.splitAt '/' rel, c ≠ [] ∧ '/' ∉ c := by
    intro c hc
    rcases List.mem_append.mp hc with hc | hc
    · exact mem_components hc
    · exact ⟨(h c hc).1, (h c hc).2.1⟩
  rw [join_eq_render hroot h]
  exact ⟨steps_render hne hall _, isAbsolute_render hne hall _⟩

end Path

end AbsoluteImports
