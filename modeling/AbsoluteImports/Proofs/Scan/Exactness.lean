import AbsoluteImports.Proofs.Scan.Exclusion
import AbsoluteImports.Proofs.Scan.Presence
import AbsoluteImports.Proofs.SourceFile.Atomicity
import Mathlib.Data.List.Induction
import Mathlib.Data.List.Nodup
import Mathlib.Data.List.Perm.Subperm

/-!
# A scan is exact

Without links, a scan gives every Python file below its root once, and nothing else. It needs only
that its patterns are accepted and that each directory below the root can be opened by its path,
which can be too long even where the directory itself is there. A walk that meets such a directory
fails, so that no file is left out silently.
-/

namespace AbsoluteImports

/-! ### Where entries stand -/

theorem Entry.isDirectory_iff {e : Entry} : e.isDirectory = true ↔ e = .directory := by
  cases e <;> simp [Entry.isDirectory]

namespace FileTree

variable {t : FileTree} {l names : Location} {e : Entry}

theorem Grounded.directory_of_append (h : t.Grounded) (hne : names ≠ [])
    (he : t.get? (l ++ names) = some e) : t.get? l = some .directory := by
  induction names using List.reverseRecOn generalizing e with
  | nil => exact absurd rfl hne
  | append_singleton init c ih =>
    have habove := h.above he
    rw [← List.append_assoc, List.dropLast_concat] at habove
    by_cases hinit : init = []
    · rwa [hinit, List.append_nil] at habove
    · exact ih hinit habove

/-- As many different locations as are taken, there are entries. -/
theorem length_le_entries {f : Nat → Location} {n : Nat}
    (hf : ∀ a b, a < n → b < n → f a = f b → a = b)
    (h : ∀ k < n, f k ≠ [] ∧ t.get? (f k) ≠ none) : n ≤ t.entries.length := by
  have hnodup : ((List.range n).map f).Nodup := by
    refine List.Nodup.map_on ?_ List.nodup_range
    intro a ha b hb hab
    exact hf a b (List.mem_range.mp ha) (List.mem_range.mp hb) hab
  have hsubset : (List.range n).map f ⊆ t.entries.map Prod.fst := by
    intro m hm
    obtain ⟨k, hk, rfl⟩ := List.mem_map.mp hm
    obtain ⟨hroot, htaken⟩ := h k (List.mem_range.mp hk)
    by_contra hnot
    refine htaken ?_
    simp only [get?, hroot, ↓reduceIte]
    refine List.lookup_eq_none_iff.mpr ?_
    intro x hx
    have hne : f k ≠ x.1 := fun he => hnot (List.mem_map.mpr ⟨x, hx, he.symm⟩)
    simpa using hne
  have hlen := (hnodup.subperm hsubset).length_le
  simpa using hlen

theorem Grounded.length_le (h : t.Grounded) (he : t.get? (l ++ names) = some e) :
    names.length ≤ t.entries.length := by
  refine length_le_entries (f := fun k => l ++ names.take (k + 1)) ?_ ?_
  · intro a b ha hb hab
    have hlen := congrArg List.length (List.append_cancel_left hab)
    rw [List.length_take, List.length_take] at hlen
    omega
  · intro k hk
    refine ⟨?_, ?_⟩
    · have hne : names ≠ [] := List.length_pos_iff.mp (by omega)
      simp [hne]
    · have hsplit : l ++ names = (l ++ names.take (k + 1)) ++ names.drop (k + 1) := by
        rw [List.append_assoc, List.take_append_drop]
      rw [hsplit] at he
      by_cases hrest : names.drop (k + 1) = []
      · rw [hrest, List.append_nil] at he
        simp [he]
      · simp [h.directory_of_append hrest he]

theorem ProperNames.of_get? (h : t.ProperNames) (he : t.get? l = some e) :
    ∀ c ∈ l, Path.ProperName c := by
  by_cases hl : l = []
  · simp [hl]
  · simp only [get?, hl, ↓reduceIte] at he
    obtain ⟨before, rest, hes, -⟩ := List.lookup_eq_some_iff.mp he
    exact h (l, e) (by simp [hes])

theorem mem_children_iff {name : Text} :
    (name, e) ∈ t.children l ↔ t.get? (l ++ [name]) = some e := by
  rw [mem_children]
  constructor
  · exact get?_of_mem (by simp)
  · intro he
    have hne : l ++ [name] ≠ [] := by simp
    simp only [get?, hne, ↓reduceIte] at he
    obtain ⟨before, rest, hes, -⟩ := List.lookup_eq_some_iff.mp he
    simp [hes]

theorem walk_names (hlinks : t.LinkFree) (hground : t.Grounded)
    {follow : Location → List Text → Except Cause Location}
    (hproper : ∀ c ∈ names, Path.ProperName c) (he : t.get? (l ++ names) = some e) :
    walk t follow l names = .ok (l ++ names) ∨ walk t follow l names = .error .nameTooLong := by
  induction names generalizing l with
  | nil =>
    rw [List.append_nil]
    exact .inl (walk_nil l)
  | cons c rest ih =>
    obtain ⟨⟨-, -, hh, ha⟩, hrest⟩ := List.forall_mem_cons.mp hproper
    have hdir := hground.directory_of_append (List.cons_ne_nil c rest) he
    by_cases hn : nameLimit < (Utf8.encode c).length
    · right
      rw [walk, hdir]
      simp only [hh, ha, hn, ↓reduceIte]
    · have hsplit : l ++ c :: rest = (l ++ [c]) ++ rest := by simp
      rw [hsplit] at he ⊢
      obtain ⟨e', he'⟩ : ∃ e', t.get? (l ++ [c]) = some e' := by
        by_cases hnil : rest = []
        · rw [hnil, List.append_nil] at he
          exact ⟨e, he⟩
        · exact ⟨_, hground.directory_of_append hnil he⟩
      rw [walk_down hdir hh ha hn he' fun target hlink => hlinks _ target (hlink ▸ he')]
      exact ih hrest he

theorem resolve_names (hlinks : t.LinkFree) (hground : t.Grounded) {n : Nat}
    (hproper : ∀ c ∈ names, Path.ProperName c) (he : t.get? (l ++ names) = some e) :
    resolve t n l names = .ok (l ++ names) ∨ resolve t n l names = .error .nameTooLong := by
  cases n with
  | zero => exact walk_names hlinks hground hproper he
  | succ n => exact walk_names hlinks hground hproper he

end FileTree

namespace Scan

variable {t : FileTree} {cwd X : Location} {root : Text} {dir : List Text}

/-! ### Walks that are not stopped -/

theorem andThen_stopped (a b : Found) :
    (a.andThen b).stopped = none ↔ a.stopped = none ∧ b.stopped = none := by
  unfold Found.andThen
  cases h : a.stopped <;> simp [h]

theorem andThen_files {a : Found} (h : a.stopped = none) (b : Found) :
    (a.andThen b).files = a.files ++ b.files := by
  simp [Found.andThen, h]

theorem inEach_eq {α : Type} {f g : α → Found} {xs : List α} (h : ∀ x ∈ xs, f x = g x) :
    Found.inEach f xs = Found.inEach g xs := by
  induction xs with
  | nil => rfl
  | cons x xs ih =>
    obtain ⟨hx, hxs⟩ := List.forall_mem_cons.mp h
    rw [Found.inEach, Found.inEach, hx, ih hxs]

theorem inEach_stopped {α : Type} (f : α → Found) (xs : List α) :
    (Found.inEach f xs).stopped = none ↔ ∀ x ∈ xs, (f x).stopped = none := by
  induction xs with
  | nil => simp [Found.inEach, Found.nothing]
  | cons x xs ih => rw [Found.inEach, andThen_stopped, ih, List.forall_mem_cons]

theorem inEach_files {α : Type} {f : α → Found} {xs : List α}
    (h : ∀ x ∈ xs, (f x).stopped = none) :
    (Found.inEach f xs).files = xs.flatMap fun x => (f x).files := by
  induction xs with
  | nil => rfl
  | cons x xs ih =>
    obtain ⟨hx, hxs⟩ := List.forall_mem_cons.mp h
    rw [Found.inEach, andThen_files hx, ih hxs, List.flatMap_cons]

/-! ### The walk -/

/-- The relative path of a Python file below a directory of the root `X`. -/
def Listed (t : FileTree) (X : Location) (dir : List Text) (rel : Text) : Prop :=
  ∃ names name e, rel = Text.joinWith '/' (dir ++ (names ++ [name])) ∧
    t.get? (X ++ (dir ++ (names ++ [name]))) = some e ∧ e.isDirectory = false ∧
    isPythonName name = true

/-- Whether each directory at or below a directory of the root `X` can be opened by its path. -/
def Openable (t : FileTree) (cwd : Location) (root : Text) (X : Location) (dir : List Text) : Prop :=
  ∀ names, t.get? (X ++ (dir ++ names)) = some .directory →
    ∃ l, t.locate cwd (fullPath root (Path.render false (dir ++ names))) = .ok l

theorem locate_fullPath (hnames : t.ProperNames) (hlinks : t.LinkFree) (hground : t.Grounded)
    (hX : t.locate cwd root = .ok X) (hdir : t.get? (X ++ dir) = some .directory) :
    t.locate cwd (fullPath root (Path.render false dir)) = .ok (X ++ dir) ∨
      ∃ c, c ≠ .noEntry ∧ t.locate cwd (fullPath root (Path.render false dir)) = .error c := by
  have hproper : ∀ c ∈ dir, Path.ProperName c := fun c hc =>
    hnames.of_get? hdir c (List.mem_append_right X hc)
  have hroot := ne_nil_of_locate hX
  rcases FileTree.locate_steps (t := t) cwd (fullPath_ne_nil hroot (Path.render false dir)) with
    hsteps | ⟨c, hc, hfail⟩
  · rw [hsteps, origin_fullPath hroot, steps_fullPath_render hproper,
      FileTree.resolve_append_of_ok hlinks (resolve_of_locate hX)]
    split
    · rename_i hnil
      subst hnil
      rw [List.append_nil] at hdir ⊢
      exact .inl (FileTree.resolve_here hdir)
    · rcases FileTree.resolve_names hlinks hground hproper hdir with hok | hlong
      · exact .inl hok
      · exact .inr ⟨_, by simp, hlong⟩
  · refine .inr ⟨c, ?_, hfail⟩
    rcases hc with rfl | rfl <;> simp

theorem openable_iff (hnames : t.ProperNames) (hlinks : t.LinkFree) (hground : t.Grounded)
    (hX : t.locate cwd root = .ok X) (hdir : t.get? (X ++ dir) = some .directory) :
    Openable t cwd root X dir ↔
      t.locate cwd (fullPath root (Path.render false dir)) = .ok (X ++ dir) ∧
        ∀ name, t.get? (X ++ (dir ++ [name])) = some .directory →
          Openable t cwd root X (dir ++ [name]) := by
  constructor
  · intro h
    refine ⟨?_, ?_⟩
    · obtain ⟨l, hl⟩ := h [] (by rwa [List.append_nil])
      rw [List.append_nil] at hl
      rcases locate_fullPath hnames hlinks hground hX hdir with hok | ⟨c, -, herror⟩
      · exact hok
      · rw [herror] at hl
        cases hl
    · intro name _ names hsub
      rw [List.append_assoc] at hsub ⊢
      exact h _ hsub
  · rintro ⟨hopen, hdeep⟩ names hsub
    cases names with
    | nil =>
      rw [List.append_nil]
      exact ⟨_, hopen⟩
    | cons name names =>
      have hsplit : dir ++ name :: names = (dir ++ [name]) ++ names := by simp
      rw [hsplit] at hsub ⊢
      refine hdeep name ?_ names hsub
      by_cases hnil : names = []
      · rwa [hnil, List.append_nil] at hsub
      · rw [← List.append_assoc] at hsub
        exact hground.directory_of_append hnil hsub

theorem listed_iff (hground : t.Grounded) {rel : Text} :
    Listed t X dir rel ↔
      (∃ name e, rel = Path.render false (dir ++ [name]) ∧
        t.get? (X ++ (dir ++ [name])) = some e ∧ e.isDirectory = false ∧ isPythonName name = true) ∨
      ∃ name, t.get? (X ++ (dir ++ [name])) = some .directory ∧ Listed t X (dir ++ [name]) rel := by
  constructor
  · rintro ⟨names, name, e, rfl, he, hfile, hpython⟩
    cases names with
    | nil => exact .inl ⟨name, e, by simp [Path.render], he, hfile, hpython⟩
    | cons first names =>
      have hsplit : dir ++ (first :: names ++ [name]) = (dir ++ [first]) ++ (names ++ [name]) := by
        simp
      rw [hsplit] at he ⊢
      refine .inr ⟨first, ?_, names, name, e, rfl, he, hfile, hpython⟩
      rw [← List.append_assoc] at he
      exact hground.directory_of_append (by simp) he
  · rintro (⟨name, e, rfl, he, hfile, hpython⟩ | ⟨name, -, names, last, e, rfl, he, hfile, hpython⟩)
    · exact ⟨[], name, e, by simp [Path.render], he, hfile, hpython⟩
    · refine ⟨name :: names, last, e, by simp, ?_, hfile, hpython⟩
      simpa using he

theorem fileAt_eq (hlinks : t.LinkFree) {l : Location} {rel : Text} {e : Entry}
    (he : t.get? l = some e) :
    fileAt t cwd root rel e = if e.isDirectory then .nothing else ⟨[rel], none⟩ := by
  cases e with
  | directory => rfl
  | file content mode => rfl
  | link target => exact absurd he (hlinks _ target)

theorem walkEntry_eq (hlinks : t.LinkFree) {l : Location} {depth : Nat} {rel name : Text} {e : Entry}
    (he : t.get? l = some e) :
    walkEntry t cwd root depth rel (name, e) =
      if e.isDirectory then walk t cwd root depth (below rel name) else .nothing := by
  cases e with
  | directory => rfl
  | file content mode => rfl
  | link target => exact absurd he (hlinks _ target)

theorem walk_directory (hnames : t.ProperNames) (hlinks : t.LinkFree) (depth : Nat)
    (hdir : t.get? (X ++ dir) = some .directory)
    (hopen : t.locate cwd (fullPath root (Path.render false dir)) = .ok (X ++ dir)) :
    walk t cwd root (depth + 1) (Path.render false dir) =
      (Found.inEach (fun x => if x.2.isDirectory then .nothing
          else ⟨[Path.render false (dir ++ [x.1])], none⟩)
        ((t.children (X ++ dir)).filter fun x => isPythonName x.1)).andThen
        (Found.inEach (fun x => if x.2.isDirectory then
            walk t cwd root depth (Path.render false (dir ++ [x.1])) else .nothing)
          (t.children (X ++ dir))) := by
  have hproper : ∀ c ∈ dir, Path.ProperName c := fun c hc =>
    hnames.of_get? hdir c (List.mem_append_right X hc)
  have hchild : ∀ x ∈ t.children (X ++ dir), t.get? (X ++ dir ++ [x.1]) = some x.2 ∧
      below (Path.render false dir) x.1 = Path.render false (dir ++ [x.1]) := by
    intro x hx
    have he := FileTree.mem_children_iff.mp hx
    exact ⟨he, below_render hproper (hnames.of_get? he _ (by simp))⟩
  rw [walk_succ depth hopen]
  congr 1
  · refine inEach_eq fun x hx => ?_
    obtain ⟨he, hbelow⟩ := hchild x (List.mem_filter.mp hx).1
    rw [fileAt_eq hlinks he, hbelow]
  · refine inEach_eq fun x hx => ?_
    obtain ⟨he, hbelow⟩ := hchild x hx
    rw [walkEntry_eq hlinks he, hbelow]

theorem walk_directory_stopped (hnames : t.ProperNames) (hlinks : t.LinkFree) (depth : Nat)
    (hdir : t.get? (X ++ dir) = some .directory)
    (hopen : t.locate cwd (fullPath root (Path.render false dir)) = .ok (X ++ dir)) :
    (walk t cwd root (depth + 1) (Path.render false dir)).stopped = none ↔
      ∀ name, t.get? (X ++ (dir ++ [name])) = some .directory →
        (walk t cwd root depth (Path.render false (dir ++ [name]))).stopped = none := by
  rw [walk_directory hnames hlinks depth hdir hopen, andThen_stopped, inEach_stopped, inEach_stopped]
  constructor
  · rintro ⟨-, h⟩ name hname
    rw [← List.append_assoc, ← FileTree.mem_children_iff] at hname
    exact h (name, .directory) hname
  · intro h
    refine ⟨fun x _ => by split <;> rfl, fun x hx => ?_⟩
    split
    · rename_i hdirectory
      have he := FileTree.mem_children_iff.mp hx
      rw [Entry.isDirectory_iff.mp hdirectory, List.append_assoc] at he
      exact h x.1 he
    · rfl

theorem walk_directory_files (hnames : t.ProperNames) (hlinks : t.LinkFree) (depth : Nat)
    (hdir : t.get? (X ++ dir) = some .directory)
    (hopen : t.locate cwd (fullPath root (Path.render false dir)) = .ok (X ++ dir))
    (hgoes : (walk t cwd root (depth + 1) (Path.render false dir)).stopped = none) (rel : Text) :
    rel ∈ (walk t cwd root (depth + 1) (Path.render false dir)).files ↔
      (∃ name e, rel = Path.render false (dir ++ [name]) ∧
        t.get? (X ++ (dir ++ [name])) = some e ∧ e.isDirectory = false ∧
        isPythonName name = true) ∨
      ∃ name, t.get? (X ++ (dir ++ [name])) = some .directory ∧
        rel ∈ (walk t cwd root depth (Path.render false (dir ++ [name]))).files := by
  rw [walk_directory hnames hlinks depth hdir hopen] at hgoes ⊢
  obtain ⟨hown, hdeep⟩ := (andThen_stopped _ _).mp hgoes
  rw [andThen_files hown, inEach_files ((inEach_stopped _ _).mp hown),
    inEach_files ((inEach_stopped _ _).mp hdeep), List.mem_append, List.mem_flatMap,
    List.mem_flatMap]
  refine or_congr ⟨?_, ?_⟩ ⟨?_, ?_⟩
  · rintro ⟨⟨name, e⟩, hx, hrel⟩
    obtain ⟨hx, hpython⟩ := List.mem_filter.mp hx
    have he := FileTree.mem_children_iff.mp hx
    rw [List.append_assoc] at he
    split at hrel
    · cases hrel
    · rename_i hfile
      exact ⟨name, e, List.mem_singleton.mp hrel, he, by simpa using hfile, hpython⟩
  · rintro ⟨name, e, rfl, he, hfile, hpython⟩
    rw [← List.append_assoc, ← FileTree.mem_children_iff] at he
    exact ⟨(name, e), List.mem_filter.mpr ⟨he, hpython⟩, by simp [hfile]⟩
  · rintro ⟨⟨name, e⟩, hx, hrel⟩
    have he := FileTree.mem_children_iff.mp hx
    rw [List.append_assoc] at he
    split at hrel
    · rename_i hdirectory
      have hentry : e = .directory := Entry.isDirectory_iff.mp hdirectory
      rw [hentry] at he
      exact ⟨name, he, hrel⟩
    · cases hrel
  · rintro ⟨name, he, hrel⟩
    rw [← List.append_assoc, ← FileTree.mem_children_iff] at he
    exact ⟨(name, .directory), he, hrel⟩

/-- A walk goes to the end exactly when it can open what it meets, and then it lists all files. -/
theorem walk_exact (hnames : t.ProperNames) (hlinks : t.LinkFree) (hground : t.Grounded)
    (hX : t.locate cwd root = .ok X) (depth : Nat) (dir : List Text)
    (hdir : t.get? (X ++ dir) = some .directory)
    (hdepth : ∀ names, t.get? (X ++ (dir ++ names)) = some .directory → names.length < depth) :
    ((walk t cwd root depth (Path.render false dir)).stopped = none ↔ Openable t cwd root X dir) ∧
      (Openable t cwd root X dir → ∀ rel,
        rel ∈ (walk t cwd root depth (Path.render false dir)).files ↔ Listed t X dir rel) := by
  induction depth generalizing dir with
  | zero => exact absurd (hdepth [] (by rwa [List.append_nil])) (by simp)
  | succ depth ih =>
    have hopenable := openable_iff hnames hlinks hground hX hdir
    rcases locate_fullPath hnames hlinks hground hX hdir with hopen | ⟨c, hc, hfail⟩
    · have hsub : ∀ name, t.get? (X ++ (dir ++ [name])) = some .directory → _ := fun name hname =>
        ih (dir ++ [name]) hname fun names hdeeper => by
          have hlen := hdepth (name :: names) (by simpa using hdeeper)
          rw [List.length_cons] at hlen
          omega
      have hgoes : (walk t cwd root (depth + 1) (Path.render false dir)).stopped = none ↔
          Openable t cwd root X dir := by
        rw [walk_directory_stopped hnames hlinks depth hdir hopen, hopenable]
        exact ⟨fun h => ⟨hopen, fun name hname => (hsub name hname).1.mp (h name hname)⟩,
          fun h name hname => (hsub name hname).1.mpr (h.2 name hname)⟩
      refine ⟨hgoes, fun hall rel => ?_⟩
      rw [walk_directory_files hnames hlinks depth hdir hopen (hgoes.mpr hall), listed_iff hground]
      refine or_congr Iff.rfl (exists_congr fun name => and_congr_right fun hname => ?_)
      exact (hsub name hname).2 ((hopenable.mp hall).2 name hname) rel
    · have hnot : ¬ Openable t cwd root X dir := by
        rw [hopenable, hfail]
        simp
      rw [walk, hfail]
      simp [hc, hnot]

theorem walkRoot_exact (hnames : t.ProperNames) (hlinks : t.LinkFree) (hground : t.Grounded)
    (hX : t.locate cwd root = .ok X) (hdir : t.get? X = some .directory) :
    ((walkRoot t cwd root).2 = none ↔ Openable t cwd root X []) ∧
      (Openable t cwd root X [] → ∀ rel, rel ∈ (walkRoot t cwd root).1 ↔ Listed t X [] rel) := by
  have hroot : root.isEmpty = false := by
    cases root with
    | nil => cases hX
    | cons c cs => rfl
  have hdir' : t.get? (X ++ []) = some .directory := by rwa [List.append_nil]
  have hdepth : ∀ names, t.get? (X ++ ([] ++ names)) = some .directory →
      names.length < depthLimit t := by
    intro names hsub
    have hlen := hground.length_le hsub
    rw [List.nil_append] at hlen
    unfold depthLimit FileTree.linkLimit
    omega
  have hwalk := walk_exact hnames hlinks hground hX (depthLimit t) [] hdir' hdepth
  have hhere : Path.render false [] = Path.here := rfl
  rw [hhere] at hwalk
  unfold walkRoot
  rw [hroot]
  simp only [Bool.false_eq_true, ↓reduceIte]
  rcases locate_fullPath hnames hlinks hground hX hdir' with hopen | ⟨c, hc, hfail⟩
  · rw [hhere, List.append_nil] at hopen
    simp only [FileTree.stat, hopen, hdir, Entry.isDirectory, ↓reduceIte, Option.map_eq_none_iff]
    exact hwalk
  · have hnot : ¬ Openable t cwd root X [] := by
      rw [openable_iff hnames hlinks hground hX hdir', hfail]
      simp
    rw [hhere] at hfail
    simp [FileTree.stat, hfail, hc, hnot]

/-! ### The selected files -/

/-- Whether the files of a scan are what its patterns leave of the Python files below the root `X`:
each once, in the order in which a scan without patterns has them, whatever the order of the
patterns. -/
structure Exact (t : FileTree) (cwd : Location) (root : Text) (X : Location)
    (exclude files : List Text) : Prop where
  nodup : files.Nodup
  mem_iff : ∀ path, path ∈ files ↔ ∃ rel, Listed t X [] rel ∧
    (∀ p ∈ exclude, Glob.check p rel ≠ .matched) ∧ path = Path.join root rel
  inPlace : ∃ rels : List Text, (∀ rel ∈ rels, Listed t X [] rel) ∧
    (pythonFiles t cwd root [] false).1 = .ok (rels.map (Path.join root)) ∧
    files = (rels.filter fun rel => ∀ p ∈ exclude, Glob.check p rel ≠ .matched).map (Path.join root)
  unordered : ∀ exclude', (∀ p, p ∈ exclude' ↔ p ∈ exclude) →
    (pythonFiles t cwd root exclude' false).1 = .ok files
  antitone : ∀ exclude' files', exclude ⊆ exclude' →
    (pythonFiles t cwd root exclude' false).1 = .ok files' → files'.Sublist files

theorem kept_iff {exclude : List Text} {rel : Text}
    (h : ∀ p ∈ exclude, Glob.check p rel ≠ .malformed) :
    Kept exclude rel ↔ ∀ p ∈ exclude, Glob.check p rel ≠ .matched := by
  refine forall_congr' fun p => imp_congr_right fun hp => ?_
  have hsound := h p hp
  cases hcheck : Glob.check p rel with
  | matched => simp
  | unmatched => simp
  | malformed => exact absurd hcheck hsound

theorem choose_ne_malformed {exclude : List Text} {rel : Text}
    (h : ∀ p ∈ exclude, Glob.check p rel ≠ .malformed) (q : Text) :
    choose rel exclude ≠ .malformed q := by
  intro hchoose
  obtain ⟨hmem, hcheck⟩ := check_of_choose_malformed hchoose
  exact h q hmem hcheck

theorem nodup_map_join (hnames : t.ProperNames) (cwd : Location) (root : Text) :
    ((walkRoot t cwd root).1.map (Path.join root)).Nodup := by
  obtain ⟨hnodup, hbeneath⟩ := walkRoot_files hnames cwd root
  by_cases hroot : root = []
  · simp [walkRoot, hroot]
  have hproper : ∀ f ∈ (walkRoot t cwd root).1, ∀ c ∈ Text.splitAt '/' f, Path.ProperName c := by
    intro f hf c hc
    obtain ⟨names, -, hs, hproper⟩ := hbeneath f hf
    exact hproper c (by simpa [hs] using hc)
  refine hnodup.map_on fun f hf g hg hfg => ?_
  have hsteps := congrArg FileTree.steps hfg
  rw [(Path.steps_join hroot (hproper f hf)).1, (Path.steps_join hroot (hproper g hg)).1] at hsteps
  exact Text.splitAt_injective '/' (List.append_cancel_left hsteps)

theorem pythonFiles_same_patterns {exclude exclude' files : List Text}
    (hsame : ∀ p, p ∈ exclude' ↔ p ∈ exclude)
    (hquiet : ∀ rel ∈ (walkRoot t cwd root).1, ∀ p ∈ exclude, Glob.check p rel ≠ .malformed)
    (hfiles : (pythonFiles t cwd root exclude false).1 = .ok files) :
    (pythonFiles t cwd root exclude' false).1 = .ok files := by
  obtain ⟨hvalid, hstopped, -, rfl⟩ := pythonFiles_eq_ok.mp hfiles
  have hkeeps : ∀ rel, Kept exclude' rel ↔ Kept exclude rel := by
    intro rel
    simp only [Kept, hsame]
  refine pythonFiles_eq_ok.mpr ⟨?_, hstopped, fun rel hrel => ?_, ?_⟩
  · rw [validate_eq_ok] at hvalid ⊢
    exact fun p hp => hvalid p ((hsame p).mp hp)
  · exact choose_ne_malformed fun p hp => hquiet rel hrel p ((hsame p).mp hp)
  · simp only [hkeeps]

theorem pythonFiles_more_patterns {exclude exclude' files files' : List Text}
    (hsub : exclude ⊆ exclude') (hfiles : (pythonFiles t cwd root exclude false).1 = .ok files)
    (hfiles' : (pythonFiles t cwd root exclude' false).1 = .ok files') : files'.Sublist files := by
  obtain ⟨-, -, -, rfl⟩ := pythonFiles_eq_ok.mp hfiles
  obtain ⟨-, -, -, rfl⟩ := pythonFiles_eq_ok.mp hfiles'
  refine (List.monotone_filter_right _ fun rel hkeep => ?_).map _
  simp only [decide_eq_true_eq] at hkeep ⊢
  exact fun p hp => hkeep p (hsub hp)

theorem pythonFiles_no_patterns (hstopped : (walkRoot t cwd root).2 = none) :
    (pythonFiles t cwd root [] false).1 = .ok ((walkRoot t cwd root).1.map (Path.join root)) := by
  refine pythonFiles_eq_ok.mpr ⟨rfl, hstopped, fun path _ p => by simp [choose], ?_⟩
  rw [List.filter_eq_self.mpr]
  simp [Kept]

/-- The scan is exact: it gives files if and only if its patterns are accepted and each directory
below the root can be opened, and then exactly the Python files that no pattern matches. -/
theorem pythonFiles_exact (t : FileTree) (cwd : Location) (root : Text) (X : Location)
    (exclude : List Text) (hnames : t.ProperNames) (hlinks : t.LinkFree) (hground : t.Grounded)
    (hX : t.locate cwd root = .ok X) (hdir : t.get? X = some .directory)
    (hquiet : ∀ rel, Listed t X [] rel → ∀ p ∈ exclude, Glob.check p rel ≠ .malformed) :
    ((∃ files, (pythonFiles t cwd root exclude false).1 = .ok files) ↔
      Glob.validate exclude = .ok () ∧ Openable t cwd root X []) ∧
    ∀ files, (pythonFiles t cwd root exclude false).1 = .ok files →
      Exact t cwd root X exclude files := by
  obtain ⟨hgoes, hfound⟩ := walkRoot_exact hnames hlinks hground hX hdir
  have hchoose : Openable t cwd root X [] → ∀ path ∈ (walkRoot t cwd root).1, ∀ p,
      choose path exclude ≠ .malformed p := fun hopen path hpath =>
    choose_ne_malformed (hquiet path ((hfound hopen path).mp hpath))
  constructor
  · constructor
    · rintro ⟨files, hfiles⟩
      obtain ⟨hvalid, hstopped, -⟩ := pythonFiles_eq_ok.mp hfiles
      exact ⟨hvalid, hgoes.mp hstopped⟩
    · rintro ⟨hvalid, hopen⟩
      exact ⟨_, pythonFiles_eq_ok.mpr ⟨hvalid, hgoes.mpr hopen, hchoose hopen, rfl⟩⟩
  · intro files hfiles
    obtain ⟨-, hstopped, -, rfl⟩ := pythonFiles_eq_ok.mp hfiles
    have hopen := hgoes.mp hstopped
    have hcheck : ∀ rel ∈ (walkRoot t cwd root).1, ∀ p ∈ exclude, Glob.check p rel ≠ .malformed :=
      fun rel hrel => hquiet rel ((hfound hopen rel).mp hrel)
    have hkept : ∀ rel ∈ (walkRoot t cwd root).1,
        (Kept exclude rel ↔ ∀ p ∈ exclude, Glob.check p rel ≠ .matched) := fun rel hrel =>
      kept_iff (hcheck rel hrel)
    refine ⟨?_, ?_, ?_, ?_, ?_⟩
    · exact (nodup_map_join hnames cwd root).sublist (List.filter_sublist.map _)
    · intro path
      simp only [List.mem_map, List.mem_filter, decide_eq_true_eq]
      constructor
      · rintro ⟨rel, ⟨hrel, hkeep⟩, rfl⟩
        exact ⟨rel, (hfound hopen rel).mp hrel, (hkept rel hrel).mp hkeep, rfl⟩
      · rintro ⟨rel, hlisted, hkeep, rfl⟩
        have hrel := (hfound hopen rel).mpr hlisted
        exact ⟨rel, ⟨hrel, (hkept rel hrel).mpr hkeep⟩, rfl⟩
    · refine ⟨_, fun rel => (hfound hopen rel).mp, pythonFiles_no_patterns hstopped, ?_⟩
      congr 1
      refine List.filter_congr fun rel hrel => ?_
      simp only [hkept rel hrel]
    · exact fun exclude' hsame => pythonFiles_same_patterns hsame hcheck hfiles
    · exact fun exclude' files' hsub => pythonFiles_more_patterns hsub hfiles

/-- A tree with a hidden file, a file that has only the ending as its name, and a directory with
the name of a Python file. -/
def variedTree : FileTree where
  entries :=
    [([['p']], .directory),
      ([['p'], ".py".toList], .file [] 0o644),
      ([['p'], "d.py".toList], .directory),
      ([['p'], "d.py".toList, "test_x.py".toList], .file [] 0o644),
      ([['p'], "d.py".toList, ".a.py".toList], .file [] 0o644),
      ([['p'], "notes.txt".toList], .file [] 0o644)]
  nodup := by decide

theorem pythonFiles_exact_varied :
    Exact variedTree [] "./p/".toList [['p']] ordinaryPatterns
      ["p/.py".toList, "p/d.py/.a.py".toList] := by
  have hfiles : (pythonFiles variedTree [] "./p/".toList ordinaryPatterns false).1 =
      .ok ["p/.py".toList, "p/d.py/.a.py".toList] := by decide +kernel
  have hsteady : ∀ p ∈ ordinaryPatterns, Glob.steady p = true := by decide +kernel
  exact (pythonFiles_exact variedTree [] "./p/".toList [['p']] ordinaryPatterns (by decide)
    (FileTree.linkFree_of_entries (by decide)) (by decide) (by decide +kernel) (by decide)
    fun rel _ p hp => Glob.check_ne_malformed (hsteady p hp) rel).2 _ hfiles

/-- A pattern that is not accepted and that matches every name before its fault is seen. -/
def everything : Text := "\x7b**,[\x7d".toList

theorem check_everything (name : Text) : Glob.check everything name = .matched := by
  obtain ⟨fuel, hfuel⟩ : ∃ fuel, Glob.stepLimit everything name = fuel + 2 := by
    have hlimit : 2 * 1 ≤ Glob.stepLimit everything name :=
      Nat.mul_le_mul (by decide) (Nat.pow_pos (by omega))
    exact ⟨_, (Nat.sub_add_cancel hlimit).symm⟩
  rw [Glob.check, hfuel]
  cases name with
  | nil => rfl
  | cons x rest => rfl

/-- A name of 252 bytes. -/
def longName : Text := List.replicate 63 '𝄞'

def nestedTree : FileTree where
  entries :=
    [([longName], .directory), ([longName, "a.py".toList], .file [] 0o644),
      ([longName, longName], .directory), ([longName, longName, "b.py".toList], .file [] 0o644)]
  nodup := by decide

/-- A path of 4092 bytes to the outer one of them. -/
def longRoot : Text := (List.replicate 15 (longName ++ "/../".toList)).flatten ++ longName

/-- Two scans without any malformed verdict that fail: the first because its pattern is not
accepted, the second because a directory below the root has a path that is too long. -/
theorem pythonFiles_not_exact :
    ((∀ name, ∀ p ∈ [everything], Glob.check p name ≠ .malformed) ∧
      lonePackage.locate [] ['p'] = .ok [['p']] ∧
      (pythonFiles lonePackage [] ['p'] [everything] false).1 =
        .error (.badPattern (.badPattern everything))) ∧
    nestedTree.locate [] longRoot = .ok [longName] ∧
      (pythonFiles nestedTree [] longRoot [] false).1 =
        .error (.walking longRoot (.failed ⟨.open longName, .nameTooLong⟩)) := by
  refine ⟨⟨?_, by decide +kernel, by decide +kernel⟩, by decide +kernel, by decide +kernel⟩
  intro name p hp
  rw [List.mem_singleton.mp hp, check_everything]
  simp

end Scan

end AbsoluteImports
