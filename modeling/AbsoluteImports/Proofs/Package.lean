import AbsoluteImports.Package
import AbsoluteImports.Proofs.Path.Cleaning

/-!
# The name of a package

A package is called by the last name on the way from the root to its directory. The way is found
by reading one component after the other, first those of the working directory if the path needs
it; no path is cleaned or cut for that.
-/

namespace AbsoluteImports

namespace Path

variable {w p : Text}

/-! ### The way to a directory -/

/-- One component is read. The names that lead to the directory come last one first, and the root
directory is above itself. -/
def enter (names : List Text) (c : Text) : List Text :=
  if c = [] ∨ c = here then names
  else if c = above then names.tail
  else c :: names

def componentsFrom (w p : Text) : List Text :=
  if isAbsolute p then Text.splitAt '/' p else Text.splitAt '/' w ++ Text.splitAt '/' p

/-- The names that lead from the root to where a path leads from a working directory, the last one
first. -/
def namesTo (w p : Text) : List Text := (componentsFrom w p).foldl enter []

theorem mem_enter {names : List Text} {c x : Text} (h : x ∈ enter names c) (hslash : '/' ∉ c) :
    x ∈ names ∨ ProperName x := by
  by_cases hskip : c = [] ∨ c = here
  · rw [enter, if_pos hskip] at h
    exact .inl h
  rw [enter, if_neg hskip] at h
  by_cases habove : c = above
  · rw [if_pos habove] at h
    exact .inl (List.mem_of_mem_tail h)
  · rw [if_neg habove] at h
    rcases List.mem_cons.mp h with rfl | h
    · exact .inr ⟨fun hc => hskip (.inl hc), hslash, fun hc => hskip (.inr hc), habove⟩
    · exact .inl h

/-- From the root, no step up is ever kept, and cleaning reads the components likewise. -/
theorem foldl_push_eq_enter {names : List Text} (hnames : ∀ x ∈ names, ProperName x)
    {cs : List Text} (hslash : ∀ c ∈ cs, '/' ∉ c) :
    cs.foldl (push true) names = cs.foldl enter names ∧
      ∀ x ∈ cs.foldl enter names, ProperName x := by
  induction cs generalizing names with
  | nil => exact ⟨rfl, hnames⟩
  | cons c cs ih =>
    obtain ⟨hc, hcs⟩ := List.forall_mem_cons.mp hslash
    have hpush : push true names c = enter names c := by
      by_cases habove : c = above
      · subst habove
        cases names with
        | nil => rfl
        | cons n names =>
          have hn : n ≠ above := (hnames n (List.mem_cons_self ..)).2.2.2
          show (if n = above then above :: n :: names else names) = names
          rw [if_neg hn]
      · simp only [push, enter, habove, ↓reduceIte]
    have hproper : ∀ x ∈ enter names c, ProperName x := by
      intro x hx
      rcases mem_enter hx hc with hx | hx
      · exact hnames x hx
      · exact hx
    rw [List.foldl_cons, List.foldl_cons, hpush]
    exact ih hproper hcs

theorem slash_not_mem_componentsFrom {c : Text} (h : c ∈ componentsFrom w p) : '/' ∉ c := by
  rw [componentsFrom] at h
  split at h
  · exact Text.not_mem_of_mem_splitAt h
  · rcases List.mem_append.mp h with h | h
    · exact Text.not_mem_of_mem_splitAt h
    · exact Text.not_mem_of_mem_splitAt h

theorem foldl_push_componentsFrom (w p : Text) :
    (componentsFrom w p).foldl (push true) [] = namesTo w p ∧
      ∀ x ∈ namesTo w p, ProperName x := by
  apply foldl_push_eq_enter
  · intro x hx
    cases hx
  · intro c hc
    exact slash_not_mem_componentsFrom hc

theorem absolute_eq_render (hw : isAbsolute w = true) (p : Text) :
    absolute w p = render true (namesTo w p).reverse := by
  have hne : w ≠ [] := by
    rintro rfl
    cases hw
  have hnames := (foldl_push_componentsFrom w p).1
  rw [← hnames, componentsFrom]
  cases hp : isAbsolute p with
  | true =>
    rw [absolute, hp, if_pos rfl, clean, components, hp]
    rfl
  | false =>
    rw [absolute_of_relative hne hp, clean, components_append hne, isAbsolute_append hne, hw]
    rfl

theorem namesTo_append (hp : p ≠ []) (w s : Text) :
    namesTo w (p ++ '/' :: s) = (Text.splitAt '/' s).foldl enter (namesTo w p) := by
  have hcomponents : componentsFrom w (p ++ '/' :: s) =
      componentsFrom w p ++ Text.splitAt '/' s := by
    rw [componentsFrom, componentsFrom, isAbsolute_append hp, Text.splitAt_append_sep]
    split
    · rfl
    · rw [List.append_assoc]
  rw [namesTo, hcomponents, List.foldl_append, ← namesTo]

theorem base_render_reverse {names : List Text} (h : ∀ x ∈ names, ProperName x) :
    base (render true names.reverse) = names.headD ['/'] := by
  cases names with
  | nil => rfl
  | cons n names =>
    have hmem : ∀ c ∈ (n :: names).reverse, c ≠ [] ∧ '/' ∉ c := by
      intro c hc
      have hproper := h c (List.mem_reverse.mp hc)
      exact ⟨hproper.1, hproper.2.1⟩
    have hlast := getLast?_eq_base (by simp) hmem true
    rw [List.getLast?_reverse] at hlast
    exact (Option.some.inj hlast).symm

end Path

namespace Package

theorem isAbsolute_pathOf (cwd : Location) : Path.isAbsolute (pathOf cwd) = true := rfl

theorem exists_pathOf {w : Text} (hw : Path.isAbsolute w = true) : ∃ cwd, pathOf cwd = w := by
  cases w with
  | nil => cases hw
  | cons c r =>
    have hc : c = '/' := by simpa [Path.isAbsolute] using hw
    refine ⟨Text.splitAt '/' r, ?_⟩
    rw [pathOf, Path.render, if_pos rfl, Text.joinWith_splitAt, hc]

theorem name_eq (cwd : Location) (dir : Text) :
    name cwd dir = (Path.namesTo (pathOf cwd) dir).headD ['/'] := by
  rw [name, Path.absolute_eq_render (isAbsolute_pathOf cwd)]
  exact Path.base_render_reverse (Path.foldl_push_componentsFrom _ _).2

/-- For every working directory and every text: the name of the package in a directory is the last
name on the way there, or a slash for the root directory. So it is a name that an entry can have or
the slash, and a slash or a dot at the end of the text makes no difference. -/
theorem name_last :
    (∀ w, Path.isAbsolute w = true → ∃ cwd, pathOf cwd = w) ∧
      ∀ cwd dir, name cwd dir = (Path.namesTo (pathOf cwd) dir).headD ['/'] ∧
        (Path.ProperName (name cwd dir) ∨ name cwd dir = ['/']) ∧
        (dir ≠ [] → name cwd (dir ++ ['/']) = name cwd dir ∧
          name cwd (dir ++ ['/', '.']) = name cwd dir) := by
  refine ⟨fun w hw => exists_pathOf hw, fun cwd dir => ⟨name_eq cwd dir, ?_, fun hdir => ?_⟩⟩
  · rw [name_eq]
    have hproper := (Path.foldl_push_componentsFrom (pathOf cwd) dir).2
    cases hnames : Path.namesTo (pathOf cwd) dir with
    | nil => exact .inr rfl
    | cons n names =>
      refine .inl (hproper n ?_)
      rw [hnames]
      exact List.mem_cons_self ..
  · constructor
    · rw [name_eq, name_eq, Path.namesTo_append hdir]
      rfl
    · rw [name_eq, name_eq, Path.namesTo_append hdir]
      rfl

/-- The way goes up past the root directory and down again, over names that it leaves. -/
theorem name_last_wandering :
    Package.name ["home".toList, "me".toList] "../../../srv//./app/lib/..".toList = "app".toList ∧
      Package.name ["home".toList, "me".toList] "../../../srv//./app/lib/../".toList =
        "app".toList ∧
      Package.name ["home".toList, "me".toList] "../../..".toList = ['/'] := by
  have hname : ∀ dir, Package.name ["home".toList, "me".toList] dir =
      (Path.namesTo (pathOf ["home".toList, "me".toList]) dir).headD ['/'] :=
    fun dir => (name_last.2 _ dir).1
  have hslash := ((name_last.2 ["home".toList, "me".toList] "../../../srv//./app/lib/..".toList).2.2
    (by decide)).1
  have happ : Package.name ["home".toList, "me".toList] "../../../srv//./app/lib/..".toList =
      "app".toList := by
    rw [hname]
    decide
  refine ⟨happ, hslash.trans happ, ?_⟩
  rw [hname]
  decide

end Package

end AbsoluteImports
