import AbsoluteImports.Proofs.FileTree.Resolution
import AbsoluteImports.Proofs.Scan.Exclusion

/-!
# Scanned files are apart

A scan gives each file once. Below its root no relative path comes twice, and without links
two different relative paths lead to two different entries.
-/

namespace AbsoluteImports

/-- Every name of an entry is one that an entry can have. -/
def FileTree.ProperNames (t : FileTree) : Prop := ∀ x ∈ t.entries, ∀ c ∈ x.1, Path.ProperName c

instance (t : FileTree) : Decidable t.ProperNames :=
  inferInstanceAs (Decidable (∀ x ∈ t.entries, ∀ c ∈ x.1, Path.ProperName c))

namespace Scan

/-! ### Walks one after the other -/

theorem files_andThen (a b : Found) : (a.andThen b).files.Sublist (a.files ++ b.files) := by
  unfold Found.andThen
  split
  · exact List.sublist_append_left _ _
  · exact List.Sublist.refl _

theorem files_inEach {α : Type} (f : α → Found) (xs : List α) :
    (Found.inEach f xs).files.Sublist (xs.flatMap fun x => (f x).files) := by
  induction xs with
  | nil => exact List.Sublist.refl _
  | cons x xs ih =>
    rw [List.flatMap_cons]
    exact (files_andThen (f x) _).trans ((List.append_sublist_append_left _).mpr ih)

/-! ### Places below a directory -/

/-- A relative path leads to a directory or below it. -/
def Under (dir : List Text) (rel : Text) : Prop :=
  ∃ names, Text.splitAt '/' rel = dir ++ names ∧ ∀ c ∈ names, Path.ProperName c

/-- A relative path leads strictly below a directory. -/
def Beneath (dir : List Text) (rel : Text) : Prop :=
  ∃ names, names ≠ [] ∧ Text.splitAt '/' rel = dir ++ names ∧ ∀ c ∈ names, Path.ProperName c

theorem Beneath.under {dir : List Text} {rel : Text} (h : Beneath dir rel) : Under dir rel := by
  obtain ⟨names, -, hs, hp⟩ := h
  exact ⟨names, hs, hp⟩

theorem Beneath.of_child {dir : List Text} {name rel : Text} (hn : Path.ProperName name)
    (h : Under (dir ++ [name]) rel) : Beneath dir rel := by
  obtain ⟨names, hs, hp⟩ := h
  refine ⟨name :: names, by simp, by simp [hs], ?_⟩
  intro c hc
  rcases List.mem_cons.mp hc with rfl | hc
  · exact hn
  · exact hp c hc

theorem splitAt_below {dir : List Text} (hd : ∀ c ∈ dir, Path.ProperName c) {name : Text}
    (hn : Path.ProperName name) :
    Text.splitAt '/' (below (Path.render false dir) name) = dir ++ [name] := by
  cases dir with
  | nil => simp [below, Path.render, Text.splitAt_of_not_mem hn.2.1]
  | cons a as =>
    have hsplit : Text.splitAt '/' (Text.joinWith '/' (a :: as)) = a :: as :=
      Text.splitAt_joinWith (by simp) fun c hc => (hd c hc).2.1
    have hne : Text.joinWith '/' (a :: as) ≠ Path.here := by
      intro hh
      rw [hh] at hsplit
      have ha : [Path.here] = a :: as := hsplit
      injection ha with ha _
      exact (hd a (by simp)).2.2.1 ha.symm
    simp only [below, Path.render, Bool.false_eq_true, ↓reduceIte, List.isEmpty_cons, hne]
    rw [Text.splitAt_append_sep, hsplit, Text.splitAt_of_not_mem hn.2.1]

theorem below_render {dir : List Text} (hd : ∀ c ∈ dir, Path.ProperName c) {name : Text}
    (hn : Path.ProperName name) :
    below (Path.render false dir) name = Path.render false (dir ++ [name]) := by
  apply Text.splitAt_injective '/'
  rw [splitAt_below hd hn]
  have hne : dir ++ [name] ≠ [] := by simp
  have hemp : (dir ++ [name]).isEmpty = false := by simp
  have hall : ∀ c ∈ dir ++ [name], '/' ∉ c := by
    intro c hc
    rcases List.mem_append.mp hc with hc | hc
    · exact (hd c hc).2.1
    · exact List.mem_singleton.mp hc ▸ hn.2.1
  simp only [Path.render, Bool.false_eq_true, ↓reduceIte, hemp, Text.splitAt_joinWith hne hall]

theorem nodup_flatMap_children (dir : List Text) {xs : List (Text × Entry)}
    {files : Text × Entry → List Text} (hx : (xs.map Prod.fst).Nodup)
    (hf : ∀ x ∈ xs, (files x).Nodup ∧ ∀ f ∈ files x, Under (dir ++ [x.1]) f) :
    (xs.flatMap files).Nodup := by
  rw [List.Nodup, List.pairwise_flatMap]
  refine ⟨fun x hx => (hf x hx).1, ?_⟩
  rw [List.Nodup, List.pairwise_map] at hx
  refine hx.imp_of_mem ?_
  intro x y hxm hym hne f hfx g hgy hfg
  obtain ⟨ns, hns, -⟩ := (hf x hxm).2 f hfx
  obtain ⟨ms, hms, -⟩ := (hf y hym).2 g hgy
  rw [hfg, hms] at hns
  simp only [List.append_assoc, List.singleton_append, List.append_cancel_left_eq,
    List.cons.injEq] at hns
  exact hne hns.1.symm

/-- The files of a directory itself and those of its sub-directories: none comes twice, and
all are below the directory. -/
theorem nodup_own_append_deep {dir : List Text} (hd : ∀ c ∈ dir, Path.ProperName c)
    {xs : List (Text × Entry)} (own deep : Text × Entry → List Text) (p : Text × Entry → Bool)
    (hx : (xs.map Prod.fst).Nodup) (hn : ∀ x ∈ xs, Path.ProperName x.1)
    (hown : ∀ x ∈ xs, (own x).Sublist [below (Path.render false dir) x.1])
    (hdeep : ∀ x ∈ xs, (deep x).Nodup ∧ ∀ f ∈ deep x, Beneath (dir ++ [x.1]) f) :
    ((xs.filter p).flatMap own ++ xs.flatMap deep).Nodup ∧
      ∀ f ∈ (xs.filter p).flatMap own ++ xs.flatMap deep, Beneath dir f := by
  have hsplit : ∀ x ∈ xs, ∀ f ∈ own x, Text.splitAt '/' f = dir ++ [x.1] := by
    intro x hxm f hf
    rw [List.mem_singleton.mp ((hown x hxm).subset hf), splitAt_below hd (hn x hxm)]
  have hfilter : ∀ x ∈ xs.filter p, x ∈ xs := fun x h => (List.mem_filter.mp h).1
  constructor
  · rw [List.nodup_append]
    refine ⟨?_, ?_, ?_⟩
    · refine nodup_flatMap_children dir
        (hx.sublist (List.Sublist.map _ List.filter_sublist)) ?_
      intro x hxm
      refine ⟨List.Nodup.sublist (hown x (hfilter x hxm)) (by simp), ?_⟩
      intro f hf
      exact ⟨[], by rw [hsplit x (hfilter x hxm) f hf, List.append_nil], by simp⟩
    · exact nodup_flatMap_children dir hx fun x hxm =>
        ⟨(hdeep x hxm).1, fun f hf => ((hdeep x hxm).2 f hf).under⟩
    · -- a file of the directory itself has one name less
      intro f hf g hg hfg
      obtain ⟨x, hxm, hfx⟩ := List.mem_flatMap.mp hf
      obtain ⟨y, hym, hgy⟩ := List.mem_flatMap.mp hg
      obtain ⟨names, hne, hs, -⟩ := (hdeep y hym).2 g hgy
      have hlen := congrArg List.length ((hsplit x (hfilter x hxm) f hfx).symm.trans (hfg ▸ hs))
      have hpos := List.length_pos_iff.mpr hne
      simp only [List.length_append, List.length_cons, List.length_nil] at hlen
      omega
  · intro f hf
    rcases List.mem_append.mp hf with hf | hf
    · obtain ⟨x, hxm, hfx⟩ := List.mem_flatMap.mp hf
      have hxs := hfilter x hxm
      exact .of_child (hn x hxs) ⟨[], by rw [hsplit x hxs f hfx, List.append_nil], by simp⟩
    · obtain ⟨x, hxm, hfx⟩ := List.mem_flatMap.mp hf
      exact .of_child (hn x hxm) ((hdeep x hxm).2 f hfx).under

/-! ### The walk -/

variable {t : FileTree} {cwd : Location} {root : Text}

theorem properName_of_child (hp : t.ProperNames) {l : Location} {x : Text × Entry}
    (hx : x ∈ t.children l) : Path.ProperName x.1 :=
  hp _ (FileTree.mem_children.mp hx) x.1 (by simp)

theorem files_fileAt (rel : Text) (e : Entry) :
    (fileAt t cwd root rel e).files.Sublist [rel] := by
  unfold fileAt
  split
  · exact List.nil_sublist _
  · exact List.Sublist.refl _
  · exact List.nil_sublist _

def walkEntry (t : FileTree) (cwd : Location) (root : Text) (depth : Nat) (dir : Text)
    (x : Text × Entry) : Found :=
  match isDirectory t cwd root (below dir x.1) x.2 with
  | .ok true => walk t cwd root depth (below dir x.1)
  | .ok false => .nothing
  | .error f => ⟨[], some f⟩

theorem walk_succ {dir : Text} {l : Location} (depth : Nat)
    (hl : t.locate cwd (fullPath root dir) = .ok l) :
    walk t cwd root (depth + 1) dir =
      (Found.inEach (fun x => fileAt t cwd root (below dir x.1) x.2)
        ((t.children l).filter fun x => isPythonName x.1)).andThen
        (Found.inEach (walkEntry t cwd root depth dir) (t.children l)) := by
  rw [walk, hl]
  rfl

theorem walk_files (hp : t.ProperNames) (depth : Nat) (dir : List Text)
    (hd : ∀ c ∈ dir, Path.ProperName c) :
    (walk t cwd root depth (Path.render false dir)).files.Nodup ∧
      ∀ f ∈ (walk t cwd root depth (Path.render false dir)).files, Beneath dir f := by
  induction depth generalizing dir with
  | zero => simp [walk, Found.nothing]
  | succ depth ih =>
    cases hl : t.locate cwd (fullPath root (Path.render false dir)) with
    | error c =>
      rw [walk, hl]
      simp only
      split
      · simp [Found.nothing]
      · simp
    | ok l =>
      rw [walk_succ depth hl]
      have hn : ∀ x ∈ t.children l, Path.ProperName x.1 := fun x hx => properName_of_child hp hx
      have hentry : ∀ x ∈ t.children l,
          (walkEntry t cwd root depth (Path.render false dir) x).files.Nodup ∧
            ∀ f ∈ (walkEntry t cwd root depth (Path.render false dir) x).files,
              Beneath (dir ++ [x.1]) f := by
        intro x hx
        have hnames : ∀ c ∈ dir ++ [x.1], Path.ProperName c := by
          intro c hc
          rcases List.mem_append.mp hc with hc | hc
          · exact hd c hc
          · exact List.mem_singleton.mp hc ▸ hn x hx
        unfold walkEntry
        split
        · rw [below_render hd (hn x hx)]
          exact ih _ hnames
        · simp [Found.nothing]
        · simp
      obtain ⟨hnodup, hbeneath⟩ := nodup_own_append_deep hd
        (fun x => (fileAt t cwd root (below (Path.render false dir) x.1) x.2).files)
        (fun x => (walkEntry t cwd root depth (Path.render false dir) x).files)
        (fun x => isPythonName x.1) (t.nodup_children l) hn (fun x _ => files_fileAt _ _) hentry
      have hsub := (files_andThen _ _).trans
        (List.Sublist.append
          (files_inEach (fun x => fileAt t cwd root (below (Path.render false dir) x.1) x.2)
            ((t.children l).filter fun x => isPythonName x.1))
          (files_inEach (walkEntry t cwd root depth (Path.render false dir)) (t.children l)))
      exact ⟨hnodup.sublist hsub, fun f hf => hbeneath f (hsub.subset hf)⟩

theorem walkRoot_files (hp : t.ProperNames) (cwd : Location) (root : Text) :
    (walkRoot t cwd root).1.Nodup ∧ ∀ f ∈ (walkRoot t cwd root).1, Beneath [] f := by
  unfold walkRoot
  split
  · simp
  · split
    · split
      · simp
      · simp
    · split
      · exact walk_files hp _ [] (by simp)
      · simp

/-! ### The selected files -/

theorem pythonFiles_sublist {exclude files : List Text} {cancelled : Bool} {es : List Event}
    (h : pythonFiles t cwd root exclude cancelled = (.ok files, es)) :
    files.Sublist ((walkRoot t cwd root).1.map (Path.join root)) := by
  rw [pythonFiles_selected h]
  exact List.filter_sublist.map _

/-- No two paths of a list lead to one entry. -/
def Apart (t : FileTree) (cwd : Location) (paths : List Text) : Prop :=
  paths.Pairwise fun p q => ∀ l, t.locate cwd p = .ok l → t.locate cwd q ≠ .ok l

/-- Without links, the files of a scan lead to different entries. -/
theorem pythonFiles_apart (hp : t.ProperNames) (hl : t.LinkFree) {exclude files : List Text}
    {cancelled : Bool} {es : List Event}
    (h : pythonFiles t cwd root exclude cancelled = (.ok files, es)) : Apart t cwd files := by
  have hsub := pythonFiles_sublist h
  obtain ⟨hnodup, hbeneath⟩ := walkRoot_files hp cwd root
  have hproper : ∀ f ∈ (walkRoot t cwd root).1, ∀ c ∈ Text.splitAt '/' f, Path.ProperName c := by
    intro f hf c hc
    obtain ⟨names, -, hs, hnames⟩ := hbeneath f hf
    exact hnames c (by simpa [hs] using hc)
  by_cases hroot : root = []
  · have hnone : (walkRoot t cwd root).1 = [] := by simp [walkRoot, hroot]
    rw [hnone, List.map_nil, List.sublist_nil] at hsub
    rw [hsub]
    exact List.Pairwise.nil
  · refine List.Pairwise.sublist hsub ?_
    rw [List.pairwise_map]
    refine hnodup.imp_of_mem ?_
    intro f g hf hg hne l hlf hlg
    have h1 := FileTree.locate_join hl hroot (hproper f hf) hlf
    have h2 := FileTree.locate_join hl hroot (hproper g hg) hlg
    exact hne (Text.splitAt_injective '/' (List.append_cancel_left (h1.symm.trans h2)))

end Scan

end AbsoluteImports
