import AbsoluteImports.Proofs.FileTree.Growth
import Mathlib.Logic.Function.Basic

/-!
# Files put into a tree by several hands

While files are replaced side by side, each replacement has at most one file of its own in the
tree: a temporary file where nothing was, or the new content at its own place. `Overlay` says
that the tree is the first one with these files put over it, and nothing else.
-/

namespace AbsoluteImports.FileTree

/-- A tree `u` that is `t` with one file put over it for some indices. `own i l` says that
index `i` may put a file over the one at `l`. -/
structure Overlay (t : FileTree) (own : Nat → Location → Prop)
    (marks : Nat → Option (Location × Entry)) (u : FileTree) : Prop where
  shown : ∀ {i l e}, marks i = some (l, e) → u.get? l = some e
  rest : ∀ l, (∀ i e, marks i ≠ some (l, e)) → u.get? l = t.get? l
  apart : ∀ {i j l e e'}, marks i = some (l, e) → marks j = some (l, e') → i = j
  file : ∀ {i l e}, marks i = some (l, e) → ∃ content mode, e = .file content mode
  spot : ∀ {i l e}, marks i = some (l, e) → t.get? l = none ∨ own i l

/-- The places that may be put over are those of files, each for one index. -/
structure OwnFiles (t : FileTree) (own : Nat → Location → Prop) : Prop where
  file : ∀ {i l}, own i l → ∃ content mode, t.get? l = some (.file content mode)
  apart : ∀ {i j l}, own i l → own j l → i = j

namespace Overlay

variable {t u : FileTree} {own : Nat → Location → Prop} {marks : Nat → Option (Location × Entry)}
  {i : Nat} {l : Location} {e : Entry}

theorem start (t : FileTree) (own : Nat → Location → Prop) : Overlay t own (fun _ => none) t :=
  ⟨nofun, fun _ _ => rfl, nofun, nofun, nofun⟩

theorem grown (hown : OwnFiles t own) (h : Overlay t own marks u) : t.Grown u := by
  constructor
  · intro l e he
    by_cases hm : ∃ i e', marks i = some (l, e')
    · obtain ⟨i, e', hi⟩ := hm
      obtain ⟨content, mode, rfl⟩ := h.file hi
      rcases h.spot hi with hn | ho
      · rw [he] at hn
        cases hn
      · obtain ⟨content', mode', hf⟩ := hown.file ho
        rw [he] at hf
        cases hf
        exact ⟨_, h.shown hi, rfl⟩
    · have hrest := h.rest l fun i e' hi => hm ⟨i, e', hi⟩
      exact ⟨e, hrest.trans he, rfl⟩
  · intro l hl
    by_cases hm : ∃ i e', marks i = some (l, e')
    · obtain ⟨i, e', hi⟩ := hm
      obtain ⟨content, mode, rfl⟩ := h.file hi
      exact .inr ⟨content, mode, h.shown hi⟩
    · exact .inl ((h.rest l fun i e' hi => hm ⟨i, e', hi⟩).trans hl)

theorem get?_own (hown : OwnFiles t own) (h : Overlay t own marks u) (ho : own i l)
    (hi : ∀ e, marks i ≠ some (l, e)) : u.get? l = t.get? l := by
  refine h.rest l ?_
  intro j e hj
  rcases h.spot hj with hn | ho'
  · obtain ⟨content, mode, hf⟩ := hown.file ho
    rw [hn] at hf
    cases hf
  · have hji := hown.apart ho' ho
    rw [hji] at hj
    exact hi e hj

/-- Where nothing is, nothing was, and nobody has put a file. -/
theorem fresh (h : Overlay t own marks u) (hl : u.get? l = none) :
    t.get? l = none ∧ ∀ j e, marks j ≠ some (l, e) := by
  have hnone : ∀ j e, marks j ≠ some (l, e) := by
    intro j e hj
    have hshown := h.shown hj
    rw [hl] at hshown
    cases hshown
  exact ⟨(h.rest l hnone).symm.trans hl, hnone⟩

/-- What an index has after one of them was moved: the moved one its new file, any other the one it
had. -/
theorem update_cases {marks : Nat → Option (Location × Entry)} {m : Option (Location × Entry)}
    {i j : Nat} {x : Location × Entry} (h : Function.update marks i m j = some x) :
    j = i ∧ m = some x ∨ j ≠ i ∧ marks j = some x := by
  by_cases hji : j = i
  · subst hji
    rw [Function.update_self] at h
    exact .inl ⟨rfl, h⟩
  · rw [Function.update_of_ne hji] at h
    exact .inr ⟨hji, h⟩

theorem update_apart (h : Overlay t own marks u) (hfree : ∀ j e, marks j = some (l, e) → j = i)
    {j k : Nat} {l' : Location} {e' e'' : Entry}
    (hj : Function.update marks i (some (l, e)) j = some (l', e'))
    (hk : Function.update marks i (some (l, e)) k = some (l', e'')) : j = k := by
  rcases update_cases hj with ⟨hji, hm⟩ | ⟨hji, hj⟩
  · rcases update_cases hk with ⟨hki, -⟩ | ⟨hki, hk⟩
    · rw [hji, hki]
    · cases hm
      exact absurd (hfree k e'' hk) hki
  · rcases update_cases hk with ⟨-, hm⟩ | ⟨-, hk⟩
    · cases hm
      exact absurd (hfree j e' hj) hji
    · exact h.apart hj hk

/-- One index puts a file at a free place, at its own, or where it has one already. -/
theorem put (h : Overlay t own marks u) (hl : l ≠ []) (hspot : t.get? l = none ∨ own i l)
    (hfree : ∀ j e, marks j = some (l, e) → j = i)
    (hold : ∀ l' e, marks i = some (l', e) → l' = l) (content : Bytes) (mode : Nat) :
    Overlay t own (Function.update marks i (some (l, .file content mode)))
      (u.set l (.file content mode)) := by
  constructor
  · intro j l' e hj
    rw [get?_set _ hl]
    rcases update_cases hj with ⟨-, hm⟩ | ⟨hji, hj⟩
    · cases hm
      rw [if_pos rfl]
    · have hne : l' ≠ l := fun hl' => hji (hfree j e (hl' ▸ hj))
      rw [if_neg hne]
      exact h.shown hj
  · intro l' hl'
    have hne : l' ≠ l := by
      intro he
      subst he
      exact hl' i _ (Function.update_self ..)
    rw [get?_set _ hl, if_neg hne]
    refine h.rest l' fun j e hj => ?_
    by_cases hji : j = i
    · subst hji
      exact hne (hold l' e hj)
    · exact hl' j e (by rw [Function.update_of_ne hji]; exact hj)
  · exact h.update_apart hfree
  · intro j l' e hj
    rcases update_cases hj with ⟨-, hm⟩ | ⟨-, hj⟩
    · cases hm
      exact ⟨content, mode, rfl⟩
    · exact h.file hj
  · intro j l' e hj
    rcases update_cases hj with ⟨hji, hm⟩ | ⟨-, hj⟩
    · cases hm
      rw [hji]
      exact hspot
    · exact h.spot hj

theorem rewrite (h : Overlay t own marks u) (hi : marks i = some (l, e)) (hl : l ≠ [])
    (content : Bytes) (mode : Nat) :
    Overlay t own (Function.update marks i (some (l, .file content mode)))
      (u.set l (.file content mode)) := by
  refine h.put hl (h.spot hi) (fun j e' hj => h.apart hj hi) ?_ content mode
  intro l' e' hi'
  rw [hi] at hi'
  cases hi'
  rfl

theorem take (h : Overlay t own marks u) (hi : marks i = some (l, e)) (hn : t.get? l = none) :
    Overlay t own (Function.update marks i none) (u.erase l) := by
  have hl : l ≠ [] := ne_root_of_none hn
  have hkept : ∀ {j m}, Function.update marks i none j = some m → j ≠ i ∧ marks j = some m :=
    fun hj => (update_cases hj).resolve_left fun hmoved => nomatch hmoved.2
  constructor
  · intro j l' e' hj
    obtain ⟨hji, hj⟩ := hkept hj
    have hne : l' ≠ l := by
      rintro rfl
      exact hji (h.apart hj hi)
    rw [get?_erase _ hl, if_neg hne]
    exact h.shown hj
  · intro l' hl'
    rw [get?_erase _ hl]
    by_cases hll : l' = l
    · rw [if_pos hll, hll, hn]
    · rw [if_neg hll]
      refine h.rest l' ?_
      intro j e' hj
      have hji : j ≠ i := by
        rintro rfl
        rw [hi] at hj
        cases hj
        exact hll rfl
      exact hl' j e' (by rw [Function.update_of_ne hji]; exact hj)
  · intro j k l' e' e'' hj hk
    exact h.apart (hkept hj).2 (hkept hk).2
  · intro j l' e' hj
    exact h.file (hkept hj).2
  · intro j l' e' hj
    exact h.spot (hkept hj).2

theorem keep (h : Overlay t own marks u) (i : Nat) :
    Overlay t own (Function.update marks i (marks i)) u := by
  rw [Function.update_eq_self]
  exact h

end Overlay

end AbsoluteImports.FileTree
