import AbsoluteImports.Text.Basic

/-!
# Cutting after separators

`cutAfter` cuts a list after each separator, whatever the elements are: characters of a text or
code units of a file. `IsCut` says what the pieces look like, and there is no other way to cut
the same list into such pieces.
-/

namespace AbsoluteImports

variable {α β : Type}

/-- The pieces of a list, cut after each separator. The last piece may end without one. -/
def cutAfter (sep : α → Bool) : List α → List (List α)
  | [] => []
  | a :: r =>
    if sep a then [a] :: cutAfter sep r
    else match cutAfter sep r with
      | [] => [[a]]
      | s :: ss => (a :: s) :: ss

/-- Pieces that end in their only separator, except for a last one that may have none. -/
inductive IsCut (sep : α → Bool) : List (List α) → Prop
  | nil : IsCut sep []
  | last (s : List α) (hne : s ≠ []) (hs : ∀ x ∈ s, sep x = false) : IsCut sep [s]
  | cons (s : List α) (a : α) {ss : List (List α)} (hs : ∀ x ∈ s, sep x = false)
      (ha : sep a = true) (rest : IsCut sep ss) : IsCut sep ((s ++ [a]) :: ss)

variable {sep : α → Bool}

theorem isCut_cutAfter (sep : α → Bool) (l : List α) : IsCut sep (cutAfter sep l) := by
  induction l with
  | nil => exact .nil
  | cons a r ih =>
    rw [cutAfter]
    split
    · rename_i ha
      exact .cons [] a (by simp) ha ih
    · rename_i ha
      have hfalse : sep a = false := by simpa using ha
      have hall : ∀ s : List α, (∀ x ∈ s, sep x = false) → ∀ x ∈ a :: s, sep x = false := by
        intro s hs x hx
        rcases List.mem_cons.mp hx with rfl | hx
        · exact hfalse
        · exact hs x hx
      generalize cutAfter sep r = pieces at ih
      cases ih with
      | nil => exact .last [a] (by simp) (hall [] (by simp))
      | last s hne hs => exact .last (a :: s) (by simp) (hall s hs)
      | cons s b hs hb rest => exact .cons (a :: s) b (hall s hs) hb rest

theorem flatten_cutAfter (sep : α → Bool) (l : List α) : (cutAfter sep l).flatten = l := by
  induction l with
  | nil => rfl
  | cons a r ih =>
    rw [cutAfter]
    split
    · rw [List.flatten_cons, ih, List.singleton_append]
    · split
      · rename_i hnil
        rw [hnil] at ih
        rw [← ih]
        rfl
      · rename_i s ss hcons
        rw [hcons, List.flatten_cons] at ih
        rw [List.flatten_cons, List.cons_append, ih]

theorem cutAfter_append {s : List α} {a : α} (hs : ∀ x ∈ s, sep x = false) (ha : sep a = true)
    (r : List α) : cutAfter sep (s ++ a :: r) = (s ++ [a]) :: cutAfter sep r := by
  induction s with
  | nil => simp [cutAfter, ha]
  | cons b s ih =>
    have hb : sep b = false := hs b (List.mem_cons_self ..)
    rw [List.cons_append, cutAfter, ih fun x hx => hs x (List.mem_cons_of_mem _ hx)]
    simp [hb]

theorem cutAfter_of_all {s : List α} (hne : s ≠ []) (hs : ∀ x ∈ s, sep x = false) :
    cutAfter sep s = [s] := by
  induction s with
  | nil => exact absurd rfl hne
  | cons b s ih =>
    have hb : sep b = false := hs b (List.mem_cons_self ..)
    by_cases hnil : s = []
    · subst hnil
      simp [cutAfter, hb]
    · rw [cutAfter, ih hnil fun x hx => hs x (List.mem_cons_of_mem _ hx)]
      simp [hb]

theorem IsCut.cutAfter_flatten {pieces : List (List α)} (h : IsCut sep pieces) :
    cutAfter sep pieces.flatten = pieces := by
  induction h with
  | nil => rfl
  | last s hne hs =>
    rw [List.flatten_cons, List.flatten_nil, List.append_nil]
    exact cutAfter_of_all hne hs
  | cons s a hs ha _ ih =>
    rw [List.flatten_cons, List.append_assoc, List.singleton_append, cutAfter_append hs ha, ih]

theorem IsCut.map {pieces : List (List α)} {sep' : β → Bool} {f : List α → List β}
    (h : IsCut sep pieces)
    (hplain : ∀ s, (∀ x ∈ s, sep x = false) → (s ≠ [] → f s ≠ []) ∧ ∀ y ∈ f s, sep' y = false)
    (hsep : ∀ s a, (∀ x ∈ s, sep x = false) → sep a = true →
      ∃ b, f (s ++ [a]) = f s ++ [b] ∧ sep' b = true) :
    IsCut sep' (pieces.map f) := by
  induction h with
  | nil => exact .nil
  | last s hne hs => exact .last (f s) ((hplain s hs).1 hne) (hplain s hs).2
  | cons s a hs ha _ ih =>
    obtain ⟨b, hb, hsep'⟩ := hsep s a hs ha
    rw [List.map_cons, hb]
    exact .cons (f s) b (hplain s hs).2 hsep' ih

theorem cutAfter_cons_of_not {a : α} (ha : sep a = false) (l : List α) :
    cutAfter sep (a :: l) =
      match cutAfter sep l with
      | [] => [[a]]
      | s :: ss => (a :: s) :: ss := by
  rw [cutAfter, if_neg (by simp [ha])]

theorem cutAfter_cons_congr {a : α} (ha : sep a = false) {l m : List α}
    (hlen : (cutAfter sep l).length = (cutAfter sep m).length) :
    (cutAfter sep (a :: l)).length = (cutAfter sep (a :: m)).length ∧
    ∀ i : Nat, (cutAfter sep l)[i]? = (cutAfter sep m)[i]? →
      (cutAfter sep (a :: l))[i]? = (cutAfter sep (a :: m))[i]? := by
  rw [cutAfter_cons_of_not ha, cutAfter_cons_of_not ha]
  generalize cutAfter sep l = p at hlen
  generalize cutAfter sep m = q at hlen
  cases p with
  | nil =>
    have hq := List.length_eq_zero_iff.mp hlen.symm
    subst hq
    exact ⟨rfl, fun _ _ => rfl⟩
  | cons s ss =>
    cases q with
    | nil => cases hlen
    | cons t ts =>
      refine ⟨hlen, fun i hi => ?_⟩
      cases i with
      | zero =>
        simp only [List.getElem?_cons_zero, Option.some.injEq] at hi ⊢
        rw [hi]
      | succ i =>
        simp only [List.getElem?_cons_succ] at hi ⊢
        exact hi

end AbsoluteImports
