import AbsoluteImports.Proofs.Path.Elements
import Mathlib.Data.List.Induction

/-!
# Cleaning is lexical

Cleaning goes through the components of a path with a stack. Components that were gone through
before can stand for what is left of them, in front of others as well as behind, so that paths can
be cleaned at once or part by part. The result has a form of its own, `IsClean`, and a path of this
form stays as it is.
-/

namespace AbsoluteImports.Path

variable {inner outer rooted : Bool} {stack st : List Text} {w p a b : Text}

/-! ### Going through what is left -/

theorem push_name {c : Text} (hnil : c ≠ []) (hhere : c ≠ here) (habove : c ≠ above)
    (rooted : Bool) (stack : List Text) : push rooted stack c = c :: stack := by
  simp [push, hnil, hhere, habove]

/-- A stack that took in one component more, gone through from its bottom, has the effect of the
stack before and then of the component. A path that starts at the root must be gone through from
the root. -/
theorem foldl_push_push (hstack : ∀ x ∈ stack, x ≠ [] ∧ x ≠ here)
    (hroot : inner = true → outer = true ∧ st = []) (c : Text) :
    (push inner stack c).reverse.foldl (push outer) st =
      push outer (stack.reverse.foldl (push outer) st) c := by
  by_cases hskip : c = [] ∨ c = here
  · simp only [push, hskip, ↓reduceIte]
  obtain ⟨hnil, hhere⟩ := not_or.mp hskip
  by_cases habove : c = above
  · subst habove
    cases stack with
    | nil =>
      cases inner with
      | false => rfl
      | true =>
        obtain ⟨rfl, rfl⟩ := hroot rfl
        rfl
    | cons top rest =>
      obtain ⟨htop, hrest⟩ := List.forall_mem_cons.mp hstack
      by_cases hup : top = above
      · have hpush : push inner (top :: rest) above = above :: top :: rest := by
          simp [push, hnil, hhere, hup]
        rw [hpush, List.reverse_cons, List.foldl_append]
        rfl
      · -- the component takes away what was on top
        have hpush : ∀ (r : Bool) (s : List Text), push r (top :: s) above = s := by
          intro r s
          simp [push, hnil, hhere, hup]
        rw [hpush, List.reverse_cons, List.foldl_append, List.foldl_cons, List.foldl_nil,
          push_name htop.1 htop.2 hup, hpush]
  · rw [push_name hnil hhere habove, List.reverse_cons, List.foldl_append]
    rfl

theorem foldl_push_reduce (hroot : inner = true → outer = true ∧ st = []) (cs : List Text) :
    (reduce inner cs).foldl (push outer) st = cs.foldl (push outer) st := by
  induction cs using List.reverseRecOn with
  | nil => rfl
  | append_singleton cs c ih =>
    have hstack : ∀ x ∈ cs.foldl (push inner) [], x ≠ [] ∧ x ≠ here := by
      intro x hx
      rcases mem_foldl_push hx with hx | rfl | ⟨-, hx⟩
      · cases hx
      · decide
      · exact hx
    have hstep := foldl_push_push hstack hroot c
    rw [reduce, List.foldl_append, List.foldl_append, List.foldl_cons, List.foldl_nil,
      List.foldl_cons, List.foldl_nil, hstep]
    exact congrArg (push outer · c) ih

theorem reduce_reduce (rooted : Bool) (cs : List Text) :
    reduce rooted (reduce rooted cs) = reduce rooted cs :=
  congrArg List.reverse (foldl_push_reduce (fun h => ⟨h, rfl⟩) cs)

theorem reduce_append (rooted : Bool) (as bs : List Text) :
    reduce rooted (as ++ bs) = (bs.foldl (push rooted) (as.foldl (push rooted) [])).reverse := by
  rw [reduce, List.foldl_append]

theorem reduce_append_left (rooted : Bool) (as bs : List Text) :
    reduce rooted (reduce rooted as ++ bs) = reduce rooted (as ++ bs) := by
  rw [reduce_append, reduce_append, foldl_push_reduce fun h => ⟨h, rfl⟩]

theorem reduce_append_right (rooted : Bool) (as bs : List Text) :
    reduce rooted (as ++ reduce false bs) = reduce rooted (as ++ bs) := by
  have hfree : false = true → rooted = true ∧ as.foldl (push rooted) [] = [] := nofun
  rw [reduce_append, reduce_append, foldl_push_reduce hfree]

/-! ### Clean paths -/

theorem components_render {cs : List Text} (h : ∀ c ∈ cs, c ≠ [] ∧ '/' ∉ c)
    (hreduce : reduce rooted cs = cs) :
    isAbsolute (render rooted cs) = rooted ∧ components (render rooted cs) = cs := by
  by_cases hne : cs = []
  · subst hne
    cases rooted with
    | true => exact ⟨rfl, rfl⟩
    | false => exact ⟨rfl, rfl⟩
  have habs := isAbsolute_render hne h rooted
  refine ⟨habs, ?_⟩
  rw [components, habs, splitAt_render hne fun c hc => (h c hc).2]
  cases rooted with
  | true => exact hreduce
  | false => exact hreduce

theorem isAbsolute_clean (p : Text) : isAbsolute (clean p) = isAbsolute p :=
  (components_render (fun _ hc => mem_components hc) (reduce_reduce _ _)).1

theorem components_clean (p : Text) : components (clean p) = components p :=
  (components_render (fun _ hc => mem_components hc) (reduce_reduce _ _)).2

theorem clean_clean (p : Text) : clean (clean p) = clean p := by
  rw [clean, isAbsolute_clean, components_clean]
  rfl

theorem clean_ne_nil (p : Text) : clean p ≠ [] :=
  render_ne_nil (fun _ hc => (mem_components hc).1) _

/-! ### The form of a clean path -/

/-- Steps up, which a path from the root has none of, and then names. -/
def IsClean (p : Text) : Prop :=
  ∃ rooted ups names, p = render rooted (List.replicate ups above ++ names) ∧
    (∀ c ∈ names, ProperName c) ∧ (rooted = true → ups = 0)

/-- The form of the stack while a path is gone through: the names lie on the steps up. -/
def Piled (rooted : Bool) (stack : List Text) : Prop :=
  ∃ ups names, stack = names ++ List.replicate ups above ∧ (∀ c ∈ names, ProperName c) ∧
    (rooted = true → ups = 0)

theorem Piled.push (h : Piled rooted stack) {c : Text} (hslash : '/' ∉ c) :
    Piled rooted (push rooted stack c) := by
  obtain ⟨ups, names, rfl, hnames, hups⟩ := h
  by_cases hskip : c = [] ∨ c = here
  · simp only [Path.push, hskip, ↓reduceIte]
    exact ⟨ups, names, rfl, hnames, hups⟩
  obtain ⟨hnil, hhere⟩ := not_or.mp hskip
  by_cases habove : c = above
  · simp only [Path.push, habove, ↓reduceIte]
    cases names with
    | cons n names =>
      obtain ⟨hn, hrest⟩ := List.forall_mem_cons.mp hnames
      have hne : n ≠ above := hn.2.2.2
      simp only [List.cons_append, hne, ↓reduceIte]
      exact ⟨ups, names, rfl, hrest, hups⟩
    | nil =>
      cases ups with
      | zero =>
        cases rooted with
        | true => exact ⟨0, [], rfl, by simp, fun _ => rfl⟩
        | false => exact ⟨1, [], rfl, by simp, by simp⟩
      | succ ups =>
        simp only [List.nil_append, List.replicate_succ, ↓reduceIte]
        exact ⟨ups + 2, [], rfl, by simp, fun hr => absurd (hups hr) (Nat.succ_ne_zero ups)⟩
  · rw [push_name hnil hhere habove]
    refine ⟨ups, c :: names, rfl, List.forall_mem_cons.mpr ⟨⟨hnil, hslash, hhere, habove⟩, hnames⟩,
      hups⟩

theorem Piled.foldl (h : Piled rooted stack) {cs : List Text} (hslash : ∀ c ∈ cs, '/' ∉ c) :
    Piled rooted (cs.foldl (Path.push rooted) stack) := by
  induction cs generalizing stack with
  | nil => exact h
  | cons c cs ih =>
    obtain ⟨hc, hcs⟩ := List.forall_mem_cons.mp hslash
    exact ih (h.push hc) hcs

theorem isClean_clean (p : Text) : IsClean (clean p) := by
  have hnothing : Piled (isAbsolute p) [] := ⟨0, [], rfl, nofun, fun _ => rfl⟩
  obtain ⟨ups, names, hstack, hnames, hups⟩ :=
    hnothing.foldl fun c hc => Text.not_mem_of_mem_splitAt hc
  refine ⟨isAbsolute p, ups, names.reverse, ?_, ?_, hups⟩
  · rw [clean, components, reduce, hstack, List.reverse_append, List.reverse_replicate]
  · intro c hc
    exact hnames c (List.mem_reverse.mp hc)

theorem foldl_push_replicate (ups : Nat) :
    (List.replicate ups above).foldl (push false) [] = List.replicate ups above := by
  induction ups with
  | zero => rfl
  | succ ups ih =>
    have hpush : push false (List.replicate ups above) above = List.replicate (ups + 1) above := by
      cases ups with
      | zero => rfl
      | succ ups => rfl
    rw [List.replicate_succ', List.foldl_append, ih, ← List.replicate_succ']
    exact hpush

theorem IsClean.clean_eq (h : IsClean p) : clean p = p := by
  obtain ⟨rooted, ups, names, rfl, hnames, hups⟩ := h
  have hmem : ∀ c ∈ List.replicate ups above ++ names, c ≠ [] ∧ '/' ∉ c := by
    intro c hc
    rcases List.mem_append.mp hc with hc | hc
    · rw [List.eq_of_mem_replicate hc]
      decide
    · exact ⟨(hnames c hc).1, (hnames c hc).2.1⟩
  have hreduce : reduce rooted (List.replicate ups above) = List.replicate ups above := by
    cases rooted with
    | true =>
      rw [hups rfl]
      rfl
    | false => rw [reduce, foldl_push_replicate, List.reverse_replicate]
  have hcs := components_render hmem
    ((reduce_append_proper rooted _ hnames).trans (congrArg (· ++ names) hreduce))
  rw [clean, hcs.1, hcs.2]

/-! ### One path below another -/

theorem clean_congr (habs : isAbsolute a = isAbsolute b) (hcs : components a = components b) :
    clean a = clean b := by
  rw [clean, clean, habs, hcs]

theorem components_append (ha : a ≠ []) (b : Text) :
    components (a ++ '/' :: b) =
      reduce (isAbsolute a) (Text.splitAt '/' a ++ Text.splitAt '/' b) := by
  rw [components, isAbsolute_append ha, Text.splitAt_append_sep]

theorem clean_append_left (ha : a ≠ []) (b : Text) :
    clean (clean a ++ '/' :: b) = clean (a ++ '/' :: b) := by
  refine clean_congr ?_ ?_
  · rw [isAbsolute_append (clean_ne_nil a), isAbsolute_append ha, isAbsolute_clean]
  · have hclean : reduce (isAbsolute a) (Text.splitAt '/' (clean a)) =
        reduce (isAbsolute a) (Text.splitAt '/' a) := by
      have hcs := components_clean a
      rwa [components, isAbsolute_clean] at hcs
    rw [components_append (clean_ne_nil a), components_append ha, isAbsolute_clean,
      ← reduce_append_left, hclean, reduce_append_left]

theorem clean_append_right (ha : a ≠ []) (hb : isAbsolute b = false) :
    clean (a ++ '/' :: clean b) = clean (a ++ '/' :: b) := by
  refine clean_congr ?_ ?_
  · rw [isAbsolute_append ha, isAbsolute_append ha]
  · have hclean : reduce false (Text.splitAt '/' (clean b)) =
        reduce false (Text.splitAt '/' b) := by
      have hcs := components_clean b
      rwa [components, components, isAbsolute_clean, hb] at hcs
    rw [components_append ha, components_append ha, ← reduce_append_right, hclean,
      reduce_append_right]

theorem join_of_ne_nil (ha : a ≠ []) (b : Text) : join a b = clean (a ++ '/' :: b) := by
  have hemp : a.isEmpty = false := by simpa using ha
  simp only [join, hemp, Bool.false_eq_true, ↓reduceIte]

/-! ### Absolute paths -/

theorem absolute_of_relative (hw : w ≠ []) (hp : isAbsolute p = false) :
    absolute w p = clean (w ++ '/' :: p) := by
  rw [absolute, hp, if_neg (by simp), join_of_ne_nil hw]

/-- A path below a directory is meant from the directory: it makes no difference whether the
directory is made absolute before or after they are joined. -/
theorem absolute_join (hw : isAbsolute w = true) (ha : a ≠ []) (hb : isAbsolute b = false) :
    absolute w (join a b) = absolute (absolute w a) b := by
  have hne : w ≠ [] := by
    rintro rfl
    cases hw
  have hstart : isAbsolute (join a b) = isAbsolute a := by
    rw [join_of_ne_nil ha, isAbsolute_clean, isAbsolute_append ha]
  cases habs : isAbsolute a with
  | true =>
    rw [habs] at hstart
    have hdir : absolute w a = clean a := by rw [absolute, habs, if_pos rfl]
    calc absolute w (join a b)
        = clean (clean (a ++ '/' :: b)) := by
          rw [absolute, hstart, if_pos rfl, join_of_ne_nil ha]
      _ = clean (clean a ++ '/' :: b) := by rw [clean_clean, clean_append_left ha]
      _ = absolute (absolute w a) b := by
          rw [hdir, absolute_of_relative (clean_ne_nil a) hb]
  | false =>
    rw [habs] at hstart
    have hrel : isAbsolute (a ++ '/' :: b) = false := by rw [isAbsolute_append ha, habs]
    have hwa : w ++ '/' :: a ≠ [] := by simp
    calc absolute w (join a b)
        = clean (w ++ '/' :: clean (a ++ '/' :: b)) := by
          rw [absolute_of_relative hne hstart, join_of_ne_nil ha]
      _ = clean ((w ++ '/' :: a) ++ '/' :: b) := by
          rw [clean_append_right hne hrel, List.append_assoc, List.cons_append]
      _ = clean (clean (w ++ '/' :: a) ++ '/' :: b) := (clean_append_left hwa b).symm
      _ = absolute (absolute w a) b := by
          rw [absolute_of_relative hne habs, absolute_of_relative (clean_ne_nil _) hb]

end AbsoluteImports.Path
