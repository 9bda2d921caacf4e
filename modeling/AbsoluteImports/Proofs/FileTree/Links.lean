import AbsoluteImports.Proofs.FileTree.Growth
import Mathlib.Data.List.Induction

/-!
# Paths through links

A path goes through a limited number of links. What is left of the limit behind the first part of
a path is enough for the rest, or there are too many links: no other difference can be seen. So a
path can be cut anywhere, and its parts can be followed one after the other.
-/

namespace AbsoluteImports.FileTree

variable {t : FileTree} {follow follow' : Location → List Text → Except Cause Location}
  {n k : Nat} {l m x : Location} {as bs cs : List Text}

/-! ### Fewer links -/

theorem walk_fewer
    (h : ∀ l cs, follow l cs = follow' l cs ∨ follow l cs = .error .tooManyLinks) (l : Location)
    (cs : List Text) :
    walk t follow l cs = walk t follow' l cs ∨ walk t follow l cs = .error .tooManyLinks := by
  induction cs generalizing l with
  | nil => exact .inl rfl
  | cons c rest ih =>
    rw [walk, walk]
    split
    · split
      · exact ih l
      · split
        · exact ih l.dropLast
        · split
          · exact .inl rfl
          · split
            · exact .inl rfl
            · exact h _ _
            · exact ih (l ++ [c])
    · exact .inl rfl

theorem resolve_fewer (h : k ≤ n) (l : Location) (cs : List Text) :
    resolve t k l cs = resolve t n l cs ∨ resolve t k l cs = .error .tooManyLinks := by
  induction k generalizing n l cs with
  | zero =>
    cases n with
    | zero => exact .inl rfl
    | succ n => exact walk_fewer (fun _ _ => .inr rfl) l cs
  | succ k ih =>
    obtain ⟨n', rfl⟩ : ∃ n', n = n' + 1 := ⟨n - 1, by omega⟩
    exact walk_fewer (fun l' cs' => ih (by omega) l' cs') l cs

theorem resolve_of_fewer (h : k ≤ n) (hr : resolve t k l cs = .ok x) :
    resolve t n l cs = .ok x := by
  rcases resolve_fewer h l cs with heq | htoo
  · rw [← heq, hr]
  · rw [htoo] at hr
    cases hr

/-! ### Cutting a path -/

theorem resolve_nil (n : Nat) (l : Location) : resolve t n l [] = .ok l := by
  cases n <;> rfl

/-- Behind its first part a path goes on with what is left of the links. -/
theorem walk_cut (hf : ∀ l as m, follow l as = .ok m →
      ∃ k ≤ n, ∀ bs, follow l (as ++ bs) = resolve t k m bs)
    (hn : ∀ l cs, walk t follow l cs = resolve t n l cs)
    (h : walk t follow l as = .ok m) :
    ∃ k ≤ n, ∀ bs, walk t follow l (as ++ bs) = resolve t k m bs := by
  induction as generalizing l with
  | nil =>
    have hlm : l = m := Except.ok.inj h
    subst hlm
    exact ⟨n, Nat.le_refl n, fun bs => hn l bs⟩
  | cons c rest ih =>
    obtain ⟨hd, hs⟩ := walk_cons_ok.mp h
    cases hs with
    | here hc hx =>
      obtain ⟨k, hk, hrest⟩ := ih hx
      refine ⟨k, hk, fun bs => ?_⟩
      rw [List.cons_append, hc, walk_here hd, hrest]
    | above hc hx =>
      obtain ⟨k, hk, hrest⟩ := ih hx
      refine ⟨k, hk, fun bs => ?_⟩
      rw [List.cons_append, hc, walk_above hd, hrest]
    | link hh ha hlen target he hx =>
      obtain ⟨k, hk, hrest⟩ := hf _ _ _ hx
      refine ⟨k, hk, fun bs => ?_⟩
      rw [List.cons_append, walk, hd]
      simp only [hh, ha, Nat.not_lt.mpr hlen, ↓reduceIte, he]
      rw [← List.append_assoc, hrest]
    | down hh ha hlen e he hl hx =>
      obtain ⟨k, hk, hrest⟩ := ih hx
      refine ⟨k, hk, fun bs => ?_⟩
      rw [List.cons_append, walk_down hd hh ha (by omega) he hl, hrest]

theorem resolve_cut (h : resolve t n l as = .ok m) :
    ∃ k ≤ n, ∀ bs, resolve t n l (as ++ bs) = resolve t k m bs := by
  induction n generalizing l as m with
  | zero => exact walk_cut (fun _ _ _ h => by cases h) (fun _ _ => rfl) h
  | succ n ih =>
    refine walk_cut (fun l' as' m' h' => ?_) (fun _ _ => rfl) h
    obtain ⟨k, hk, hrest⟩ := ih h'
    exact ⟨k, Nat.le_succ_of_le hk, hrest⟩

theorem resolve_first (h : resolve t n l (as ++ bs) = .ok x) : ∃ m, resolve t n l as = .ok m := by
  induction bs using List.reverseRecOn generalizing x with
  | nil => exact ⟨x, by rwa [List.append_nil] at h⟩
  | append_singleton init c ih =>
    rw [← List.append_assoc] at h
    obtain ⟨dir, hdir, -⟩ := resolve_snoc h
    exact ih hdir

/-! ### Steps to the directory itself -/

theorem resolve_of_here (h : resolve t n l (Path.here :: cs) = .ok x) : resolve t n l cs = .ok x := by
  have hwalk : ∀ follow, walk t follow l (Path.here :: cs) = .ok x → walk t follow l cs = .ok x := by
    intro follow h
    obtain ⟨hd, -⟩ := walk_cons_ok.mp h
    rwa [walk_here hd] at h
  cases n with
  | zero => exact hwalk _ h
  | succ n => exact hwalk _ h

theorem resolve_filter_here (h : resolve t n l cs = .ok x) :
    resolve t n l (cs.filter (· ≠ Path.here)) = .ok x := by
  induction cs generalizing n l with
  | nil => exact h
  | cons c rest ih =>
    by_cases hc : c = Path.here
    · subst hc
      rw [List.filter_cons_of_neg (by simp)]
      exact ih (resolve_of_here h)
    · have hsplit : resolve t n l ([c] ++ rest) = .ok x := h
      obtain ⟨m, hm⟩ := resolve_first hsplit
      obtain ⟨k, -, hcut⟩ := resolve_cut hm
      rw [hcut] at hsplit
      rw [List.filter_cons_of_pos (by simpa using hc), ← List.singleton_append, hcut]
      exact ih hsplit

end AbsoluteImports.FileTree
