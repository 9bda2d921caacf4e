import AbsoluteImports.Proofs.Path.Components

/-!
# Elements of paths

The path of clean components reads as these components again. The last element of a path and the
directory that holds it share its components out between them.
-/

namespace AbsoluteImports.Path

variable {p : Text}

/-! ### Paths of clean components -/

theorem splitAt_render {cs : List Text} (hne : cs ≠ []) (h : ∀ c ∈ cs, '/' ∉ c) (rooted : Bool) :
    Text.splitAt '/' (render rooted cs) = if rooted then [] :: cs else cs := by
  have hsplit : Text.splitAt '/' (Text.joinWith '/' cs) = cs := Text.splitAt_joinWith hne h
  cases rooted with
  | true => simp only [render, ↓reduceIte, Text.splitAt_cons_sep, hsplit]
  | false =>
    have hemp : cs.isEmpty = false := by simpa using hne
    simp only [render, Bool.false_eq_true, ↓reduceIte, hemp, hsplit]

theorem filter_splitAt_render {cs : List Text} (hne : cs ≠ []) (h : ∀ c ∈ cs, c ≠ [] ∧ '/' ∉ c)
    (rooted : Bool) : (Text.splitAt '/' (render rooted cs)).filter (· ≠ []) = cs := by
  have hfilter : cs.filter (· ≠ []) = cs :=
    List.filter_eq_self.mpr fun c hc => by simpa using (h c hc).1
  rw [splitAt_render hne (fun c hc => (h c hc).2)]
  cases rooted with
  | true => exact (List.filter_cons_of_neg (by simp)).trans hfilter
  | false => exact hfilter

theorem getLast?_render {cs : List Text} (hne : cs ≠ []) (h : ∀ c ∈ cs, c ≠ [] ∧ '/' ∉ c)
    (rooted : Bool) : (render rooted cs).getLast? ≠ some '/' := by
  have hlast := Text.getLast?_joinWith hne h
  cases rooted with
  | true =>
    have hj : Text.joinWith '/' cs ≠ [] := by
      intro hj
      have hsplit := Text.splitAt_joinWith hne fun c hc => (h c hc).2
      rw [hj] at hsplit
      exact (h [] (by simp [← hsplit, Text.splitAt])).1 rfl
    simp only [render, ↓reduceIte, List.getLast?_cons_of_ne_nil hj]
    exact hlast
  | false =>
    have hemp : cs.isEmpty = false := by simpa using hne
    simp only [render, Bool.false_eq_true, ↓reduceIte, hemp]
    exact hlast

theorem render_ne_nil {cs : List Text} (h : ∀ c ∈ cs, c ≠ []) (rooted : Bool) :
    render rooted cs ≠ [] := by
  cases rooted with
  | true => simp [render]
  | false =>
    cases cs with
    | nil => decide
    | cons c rest =>
      have hc := h c (List.mem_cons_self ..)
      cases rest with
      | nil => simpa [render, Text.joinWith] using hc
      | cons v vs => simp [render, Text.joinWith]

/-! ### The last element -/

theorem base_of_no_slash (hp : p ≠ []) (h : p.getLast? ≠ some '/') :
    base p = lastElement p ∧ lastElement p ≠ [] ∧ '/' ∉ lastElement p := by
  obtain ⟨r, c, rfl⟩ : ∃ r c, p = r ++ [c] := by
    rcases List.eq_nil_or_concat p with hnil | ⟨r, c, hrc⟩
    · exact absurd hnil hp
    · exact ⟨r, c, by rw [hrc, List.concat_eq_append]⟩
  have hc : c ≠ '/' := by
    intro hc
    rw [List.getLast?_concat, hc] at h
    exact h rfl
  refine ⟨?_, ?_, ?_⟩
  · have hdrop : ((r ++ [c]).reverse.dropWhile (· == '/')).reverse = r ++ [c] := by
      simp [hc]
    simp only [base, hdrop]
    simp
  · simp [lastElement, hc]
  · intro hm
    rw [lastElement, List.mem_reverse] at hm
    have hall := List.all_takeWhile (p := (· != '/')) (l := (r ++ [c]).reverse)
    simpa using List.all_eq_true.mp hall '/' hm

theorem base_ne_nil (p : Text) : base p ≠ [] := by
  simp only [base]
  split
  · decide
  · split
    · simp
    · rename_i hne
      intro hnil
      rw [lastElement, List.reverse_reverse, List.reverse_eq_nil_iff] at hnil
      -- what is left begins, from its end, with something that is no slash
      cases hd : p.reverse.dropWhile (· == '/') with
      | nil => rw [hd] at hne; exact hne rfl
      | cons c r =>
        have hc := List.head?_dropWhile_not (· == '/') p.reverse
        rw [hd] at hc hnil
        simp only [List.head?_cons] at hc
        have hslash : (c != '/') = true := by simpa using hc
        simp [hslash] at hnil

/-! ### The directory that holds it -/

theorem reduce_append_nil (rooted : Bool) (cs : List Text) :
    reduce rooted (cs ++ [[]]) = reduce rooted cs := by
  simp [reduce, List.foldl_append, push]

theorem lastElement_cases (p : Text) :
    lastElement p = p ∧ parent p = here ∨
      ∃ q, p = q ++ '/' :: lastElement p ∧ parent p = clean (q ++ ['/']) := by
  have hsplit := congrArg List.reverse
    (List.takeWhile_append_dropWhile (p := (· != '/')) (l := p.reverse))
  rw [List.reverse_append, List.reverse_reverse, ← lastElement] at hsplit
  unfold parent
  cases hd : p.reverse.dropWhile (· != '/') with
  | nil =>
    rw [hd, List.reverse_nil, List.nil_append] at hsplit
    exact .inl ⟨hsplit, rfl⟩
  | cons a r =>
    -- what was dropped ends where the first slash from the end stands
    have ha : a = '/' := by
      have hhead := List.head?_dropWhile_not (· != '/') p.reverse
      rw [hd] at hhead
      simpa using hhead
    subst ha
    rw [hd, List.reverse_cons, List.append_assoc] at hsplit
    exact .inr ⟨r.reverse, hsplit.symm, by rw [List.reverse_cons]⟩

theorem isAbsolute_of_no_slash (h : '/' ∉ p) : isAbsolute p = false := by
  cases p with
  | nil => rfl
  | cons a as =>
    have ha : a ≠ '/' := fun he => h (he ▸ List.mem_cons_self ..)
    simp [isAbsolute, ha]

theorem clean_append_slash {q rest : Text} (hp : p = q ++ '/' :: rest) :
    clean (q ++ ['/']) = render (isAbsolute p) (reduce (isAbsolute p) (Text.splitAt '/' q)) := by
  have habs : isAbsolute p = isAbsolute (q ++ ['/']) := by
    rw [hp, ← List.singleton_append, ← List.append_assoc, isAbsolute_append (by simp)]
  rw [clean, components, ← habs, Text.splitAt_append_sep]
  exact congrArg (render _) (reduce_append_nil _ _)

theorem parent_eq_render (hp : p ≠ []) (h : p.getLast? ≠ some '/') :
    ∃ init, Text.splitAt '/' p = init ++ [base p] ∧
      parent p = render (isAbsolute p) (reduce (isAbsolute p) init) := by
  obtain ⟨hbase, -, hslash⟩ := base_of_no_slash hp h
  have hlast : Text.splitAt '/' (lastElement p) = [lastElement p] :=
    Text.splitAt_of_not_mem hslash
  rw [hbase]
  rcases lastElement_cases p with ⟨hplain, hparent⟩ | ⟨q, hpq, hparent⟩
  · rw [hplain] at hslash
    refine ⟨[], ?_, ?_⟩
    · rw [List.nil_append, ← hlast, hplain]
    · rw [hparent, isAbsolute_of_no_slash hslash]
      rfl
  · refine ⟨Text.splitAt '/' q, ?_, ?_⟩
    · have hcut : Text.splitAt '/' (q ++ '/' :: lastElement p) =
          Text.splitAt '/' q ++ Text.splitAt '/' (lastElement p) :=
        Text.splitAt_append_sep q (lastElement p)
      rw [← hpq, hlast] at hcut
      exact hcut
    · rw [hparent, clean_append_slash hpq]

theorem getLast?_eq_base {cs : List Text} (hne : cs ≠ []) (h : ∀ c ∈ cs, c ≠ [] ∧ '/' ∉ c)
    (rooted : Bool) : cs.getLast? = some (base (render rooted cs)) := by
  have hpath : render rooted cs ≠ [] := render_ne_nil (fun c hc => (h c hc).1) rooted
  obtain ⟨init, hinit, -⟩ := parent_eq_render hpath (getLast?_render hne h rooted)
  have hlast := List.getLast?_concat (l := init) (a := base (render rooted cs))
  rw [← hinit, splitAt_render hne fun c hc => (h c hc).2] at hlast
  cases rooted with
  | true => rwa [if_pos rfl, List.getLast?_cons_of_ne_nil hne] at hlast
  | false => exact hlast

end AbsoluteImports.Path
