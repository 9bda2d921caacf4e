import AbsoluteImports.Proofs.SourceFile.Writing
import Mathlib.Logic.Relation

/-!
# A file is replaced as a whole or not at all

A write alone in a tree goes from stage to stage, and each of its steps may fail, with any error
and after any part of the content was stored. Whatever happens, the path names what it named, and
there is the old entry or a file with the whole new content. The tree is followed exactly: between
the steps it is the first tree with one file more, and after a failure it is the first tree.

Temporary files are new names, so a path could come to lead somewhere else. It does not:
`place_of_set` follows a path in a tree with a file put where no directory was.
-/

namespace AbsoluteImports.FileTree

variable {t u : FileTree} {cwd l m x : Location} {path : Text}
  {follow follow' : Location → List Text → Except Cause Location}

/-! ### Trees with a file put into them -/

/-- Every entry stands in a directory, as it does in a file system. -/
def Grounded (t : FileTree) : Prop := ∀ p ∈ t.entries, t.get? p.1.dropLast = some .directory

instance (t : FileTree) : Decidable t.Grounded :=
  inferInstanceAs (Decidable (∀ p ∈ t.entries, t.get? p.1.dropLast = some .directory))

theorem Grounded.above (h : t.Grounded) {e : Entry} (he : t.get? l = some e) :
    t.get? l.dropLast = some .directory := by
  by_cases hl : l = []
  · rw [hl]
    exact get?_root t
  · simp only [get?, hl, ↓reduceIte] at he
    obtain ⟨before, rest, hes, -⟩ := List.lookup_eq_some_iff.mp he
    exact h (l, e) (by simp [hes])

theorem erase_within (t : FileTree) (l : Location) : (t.erase l).Within t := by
  intro k e hk
  by_cases hroot : k = []
  · rw [hroot, get?_root] at hk ⊢
    exact hk
  · simp only [get?, erase, hroot, ↓reduceIte, lookup_filter_ne] at hk ⊢
    split at hk
    · cases hk
    · exact hk

theorem erase_within_set (hm : m ≠ []) (e : Entry) : (t.erase m).Within (t.set m e) := by
  intro k e' hk
  rw [get?_erase t hm] at hk
  rw [get?_set t hm]
  split at hk
  · cases hk
  · rename_i hne
    rw [if_neg hne, hk]

theorem get?_of_set (hm : m ≠ []) {content : Bytes} {mode : Nat} {e : Entry}
    (he : ∀ b n, e ≠ .file b n) (h : (t.set m (.file content mode)).get? l = some e) :
    l ≠ m ∧ t.get? l = some e := by
  rw [get?_set t hm] at h
  split at h
  · cases h
    exact absurd rfl (he content mode)
  · rename_i hne
    exact ⟨hne, h⟩

theorem walk_of_set (hm : m ≠ []) {content : Bytes} {mode : Nat} {cs : List Text}
    (hf : ∀ l cs x, follow l cs = .ok x → follow' l cs = .ok x ∨ x = m)
    (hw : walk (t.set m (.file content mode)) follow l cs = .ok x) :
    walk t follow' l cs = .ok x ∨ x = m := by
  induction cs generalizing l with
  | nil => exact .inl hw
  | cons c rest ih =>
    obtain ⟨hd, hs⟩ := walk_cons_ok.mp hw
    obtain ⟨-, hd'⟩ := get?_of_set hm (by simp) hd
    cases hs with
    | here hc hx => exact (ih hx).imp_left fun h => walk_cons_ok.mpr ⟨hd', .here hc h⟩
    | above hc hx => exact (ih hx).imp_left fun h => walk_cons_ok.mpr ⟨hd', .above hc h⟩
    | link hh ha hn target he hx =>
      obtain ⟨-, he'⟩ := get?_of_set hm (by simp) he
      exact (hf _ _ _ hx).imp_left fun h => walk_cons_ok.mpr ⟨hd', .link hh ha hn target he' h⟩
    | down hh ha hn e he hl hx =>
      by_cases hnew : l ++ [c] = m
      · -- no step leads on from a file
        cases rest with
        | nil =>
          right
          rw [← hnew]
          exact (Except.ok.inj hx).symm
        | cons c' rest =>
          obtain ⟨hfile, -⟩ := walk_cons_ok.mp hx
          exact absurd hnew (get?_of_set hm (by simp) hfile).1
      · rw [get?_set t hm, if_neg hnew] at he
        exact (ih hx).imp_left fun h => walk_cons_ok.mpr ⟨hd', .down hh ha hn e he hl h⟩

theorem resolve_of_set (hm : m ≠ []) {content : Bytes} {mode n : Nat} {cs : List Text}
    (hr : resolve (t.set m (.file content mode)) n l cs = .ok x) :
    resolve t n l cs = .ok x ∨ x = m := by
  induction n generalizing l cs x with
  | zero => exact walk_of_set hm (fun _ _ _ h => by cases h) hr
  | succ n ih => exact walk_of_set hm (fun _ _ _ h => ih h) hr

theorem place_of_set (ht : t.Grounded) (hm : t.get? m ≠ some .directory) {content : Bytes}
    {mode : Nat} (hp : (t.set m (.file content mode)).place cwd path = .ok l) :
    t.place cwd path = .ok l := by
  have hroot : m ≠ [] := ne_root_of_get? hm
  obtain ⟨s, cs, hs, hcase⟩ := place_eq_ok.mp hp
  refine place_eq_ok.mpr ⟨s, cs, hs, ?_⟩
  rcases hcase with hnil | ⟨c, hc, hk, hr⟩ | ⟨c, dir, hc, hk, hr, hd, hn, hl⟩
  · exact .inl hnil
  · refine .inr (.inl ⟨c, hc, hk, ?_⟩)
    rcases resolve_of_set hroot hr with hr' | rfl
    · exact hr'
    -- the path ends in a directory or above one, and neither can be the new file
    · obtain ⟨init, rfl⟩ := List.getLast?_eq_some_iff.mp hc
      obtain ⟨dir, -, hend⟩ := resolve_snoc hr
      obtain ⟨hne, hd⟩ := get?_of_set hroot (by simp) hend.directory
      rcases hk with hk | hk
      · exact absurd (hend.here hk).symm hne
      · rw [hend.above hk] at hm
        exact absurd (ht.above hd) hm
  · obtain ⟨hne, hd'⟩ := get?_of_set hroot (by simp) hd
    rcases resolve_of_set hroot hr with hr' | hx
    · exact .inr (.inr ⟨c, dir, hc, hk, hr', hd', hn, hl⟩)
    · exact absurd hx hne

/-! ### The place of a temporary file -/

theorem getLast?_steps (hp : path ≠ []) : (steps path).getLast? =
    some (if path.getLast? = some '/' then Path.here else Path.base path) := by
  by_cases hlast : path.getLast? = some '/'
  · simp only [steps, hlast, ↓reduceIte, List.getLast?_concat]
  · obtain ⟨hbase, hne, -⟩ := Path.base_of_no_slash hp hlast
    obtain ⟨init, hsplit, -⟩ := Path.parent_eq_render hp hlast
    rw [← hbase] at hne
    simp only [steps, hlast, ↓reduceIte, hsplit, List.filter_append, List.append_nil]
    rw [List.filter_cons_of_pos (by simpa using hne), List.filter_nil, List.getLast?_concat]

/-- Nothing that a path names is called like a temporary file for it, unless there is an entry. -/
theorem place_ne_temp (ht : t.Grounded) {dir : Location} {tag : Nat}
    (hfree : t.get? (dir ++ [tempName (Path.base path) tag]) = none) :
    t.place cwd path ≠ .ok (dir ++ [tempName (Path.base path) tag]) := by
  intro hp
  obtain ⟨s, cs, hs, hcase⟩ := place_eq_ok.mp hp
  obtain ⟨-, rfl⟩ := start_eq_ok hs
  have hpath : path ≠ [] := by
    rintro rfl
    cases hs
  have hlast := getLast?_steps hpath
  rcases hcase with ⟨hc, -⟩ | ⟨c, hc, hk, hr⟩ | ⟨c, d, hc, hk, -, -, -, hl⟩
  · rw [hlast] at hc
    cases hc
  · obtain ⟨init, hinit⟩ := List.getLast?_eq_some_iff.mp hc
    rw [hinit] at hr
    obtain ⟨d, -, hend⟩ := resolve_snoc hr
    rcases hk with hk | hk
    · rw [hend.here hk, hend.directory] at hfree
      cases hfree
    · rw [hend.above hk, ht.above hend.directory] at hfree
      cases hfree
  · -- the last step is the name of the file itself, and that is shorter
    have hname : c = Path.base path := by
      rw [hlast] at hc
      split at hc
      · cases hc
        exact absurd (.inl rfl) hk
      · exact (Option.some.inj hc).symm
    have hsame := congrArg List.getLast? hl
    rw [List.getLast?_concat, List.getLast?_concat, Option.some.injEq, hname] at hsame
    have hlength := congrArg List.length hsame
    simp [tempName] at hlength
    omega

theorem openTemp_named {dir base : Text} {attempts tag : Nat} {temp : Temp} {created : FileTree}
    (h : t.openTemp cwd dir base attempts tag = .ok (temp, created)) :
    ∃ tag', temp.path = tempPath dir base tag' ∧
      t.openNew cwd temp.path = .ok (temp.location, created) := by
  induction attempts generalizing tag with
  | zero =>
    simp only [openTemp] at h
    cases hn : t.openNew cwd (tempPath dir base tag) with
    | error f => rw [hn] at h; cases h
    | ok p =>
      rw [hn] at h
      cases h
      exact ⟨tag, rfl, hn⟩
  | succ n ih =>
    simp only [openTemp] at h
    cases hn : t.openNew cwd (tempPath dir base tag) with
    | error f =>
      simp only [hn] at h
      split at h
      · exact ih h
      · cases h
    | ok p =>
      rw [hn] at h
      cases h
      exact ⟨tag, rfl, hn⟩

end AbsoluteImports.FileTree

namespace AbsoluteImports.SourceFile

open FileTree (Temp tempPath tempName)

variable {t u u' : FileTree} {cwd : Location} {path : Text} {content : Bytes}
  {stage stage' : Stage}

/-! ### Runs -/

/-- One step of a write that is alone in its tree. It may fail with any error, and the temporary
file gets any number that is free. -/
inductive Stage.Step (cwd : Location) (path : Text) (content : Bytes) :
    Stage × FileTree → Stage × FileTree → Prop
  | taken (fault : Option Error) (tag : Nat) (choice : Choice) {stage stage' : Stage}
      {t t' : FileTree} (h : stage.next fault tag cwd path content t choice = some (stage', t')) :
      Step cwd path content (stage, t) (stage', t')

abbrev Stage.Runs (cwd : Location) (path : Text) (content : Bytes) :
    Stage × FileTree → Stage × FileTree → Prop :=
  Relation.ReflTransGen (Stage.Step cwd path content)

/-! ### What a step keeps -/

/-- A temporary file of its own, and not the file that the path names. -/
structure Aside (t : FileTree) (cwd : Location) (path : Text) (temp : Temp) : Prop where
  free : t.get? temp.location = none
  placed : t.place cwd temp.path = .ok temp.location
  apart : t.place cwd path ≠ .ok temp.location

/-- A write from the tree `t` has come to a stage with the tree `u`. -/
def Stage.Holds (t : FileTree) (cwd : Location) (path : Text) (content : Bytes) (u : FileTree) :
    Stage → Prop
  | .checking => u = t
  | .creating mode => u = t ∧ t.replacedMode cwd path = .ok mode
  | .filling mode temp => t.replacedMode cwd path = .ok mode ∧ Aside t cwd path temp ∧
      u = t.set temp.location (.file [] 0o600)
  | .protecting mode temp => t.replacedMode cwd path = .ok mode ∧ Aside t cwd path temp ∧
      u = t.set temp.location (.file content 0o600)
  | .closing temp | .moving temp => Aside t cwd path temp ∧
      ∃ mode, t.replacedMode cwd path = .ok mode ∧ u = t.set temp.location (.file content mode)
  | .removing temp _ => Aside t cwd path temp ∧
      ∃ stored mode, u = t.set temp.location (.file stored mode)
  | .ended (.ok _) => ∃ l mode, t.place cwd path = .ok l ∧ t.get? l ≠ some .directory ∧
      t.replacedMode cwd path = .ok mode ∧ u = t.set l (.file content mode)
  | .ended (.error _) => u = t

theorem aside_of_openNew (ht : t.Grounded) (hbase : '/' ∉ Path.base path) {tag : Nat}
    {l : Location} {created : FileTree}
    (h : t.openNew cwd (tempPath (Path.parent path) (Path.base path) tag) = .ok (l, created)) :
    Aside t cwd path ⟨tempPath (Path.parent path) (Path.base path) tag, l⟩ ∧
      created = t.set l (.file [] 0o600) := by
  obtain ⟨hplace, hfree, hcreated⟩ := FileTree.openNew_ok h
  refine ⟨⟨hfree, hplace, ?_⟩, hcreated⟩
  obtain ⟨dir, hl⟩ : ∃ dir, l = dir ++ [tempName (Path.base path) tag] := by
    obtain ⟨s, cs, hs, hcase⟩ := FileTree.place_eq_ok.mp hplace
    obtain ⟨-, rfl⟩ := FileTree.start_eq_ok hs
    have hlast : (FileTree.steps (tempPath (Path.parent path) (Path.base path) tag)).getLast? =
        some (tempName (Path.base path) tag) := by
      rw [FileTree.steps_tempPath hbase, List.getLast?_concat]
    rcases hcase with ⟨hc, -⟩ | ⟨c, hc, hk, -⟩ | ⟨c, dir, hc, -, -, -, -, hl⟩
    · rw [hlast] at hc
      cases hc
    · rw [hlast] at hc
      cases hc
      exact absurd hk FileTree.tempName_step
    · rw [hlast] at hc
      cases hc
      exact ⟨dir, hl⟩
  subst hl
  exact FileTree.place_ne_temp ht hfree

/-- The temporary file replaces what the path names, and nothing is left of it. -/
theorem rename_of_aside (ht : t.Grounded) {temp : Temp} (ha : Aside t cwd path temp) {mode : Nat}
    {moved : FileTree}
    (h : (t.set temp.location (.file content mode)).rename cwd temp.path path = .ok moved) :
    ∃ l, t.place cwd path = .ok l ∧ t.get? l ≠ some .directory ∧
      moved = t.set l (.file content mode) := by
  have hroot : temp.location ≠ [] := FileTree.ne_root_of_none ha.free
  have hnot : t.get? temp.location ≠ some .directory := by
    rw [ha.free]
    simp
  obtain ⟨l₁, l, e, hl₁, hl, he, hd, hmoved⟩ := FileTree.rename_ok h
  have hwithin := FileTree.within_set_of_none ha.free (.file content mode)
  have htemp : temp.location = l₁ :=
    Except.ok.inj ((FileTree.place_mono hwithin ha.placed).symm.trans hl₁)
  subst htemp
  have hplace : t.place cwd path = .ok l := FileTree.place_of_set ht hnot hl
  have hne : temp.location ≠ l := by
    intro heq
    exact ha.apart (heq ▸ hplace)
  rw [FileTree.get?_set t hroot, if_pos rfl, Option.some.injEq] at he
  rw [FileTree.get?_set t hroot, if_neg (Ne.symm hne)] at hd
  refine ⟨l, hplace, hd, ?_⟩
  rw [hmoved, if_neg hne, FileTree.erase_set_of_none ha.free, he]

theorem Stage.fail_holds {fault : Option Error} {tag : Nat} {stored : Bytes}
    (hs : stage.Holds t cwd path content u)
    (h : stage.next fault tag cwd path content u (.fail stored) = some (stage', u')) :
    stage'.Holds t cwd path content u' := by
  cases stage with
  | checking =>
    obtain ⟨e, -, he⟩ := Option.map_eq_some_iff.mp h
    cases he
    exact hs
  | creating mode =>
    obtain ⟨e, -, he⟩ := Option.map_eq_some_iff.mp h
    cases he
    exact hs.1
  | filling mode temp =>
    obtain ⟨-, haside, rfl⟩ := hs
    obtain ⟨e, -, he⟩ := Option.map_eq_some_iff.mp h
    cases he
    exact ⟨haside, stored, 0o600, FileTree.set_set_of_none haside.free _ _⟩
  | protecting mode temp =>
    obtain ⟨-, haside, hu⟩ := hs
    obtain ⟨e, -, he⟩ := Option.map_eq_some_iff.mp h
    cases he
    exact ⟨haside, content, 0o600, hu⟩
  | closing temp =>
    obtain ⟨haside, mode, -, hu⟩ := hs
    obtain ⟨e, -, he⟩ := Option.map_eq_some_iff.mp h
    cases he
    exact ⟨haside, content, mode, hu⟩
  | moving temp =>
    obtain ⟨haside, mode, -, hu⟩ := hs
    obtain ⟨e, -, he⟩ := Option.map_eq_some_iff.mp h
    cases he
    exact ⟨haside, content, mode, hu⟩
  | removing temp e => cases h
  | ended r => cases h

theorem Stage.creating_holds (ht : t.Grounded) {fault : Option Error} {mode tag : Nat}
    (hs : (Stage.creating mode).Holds t cwd path content u)
    (h : Stage.next fault tag cwd path content u (.creating mode) .go = some (stage', u')) :
    stage'.Holds t cwd path content u' := by
  obtain ⟨rfl, hmode⟩ := hs
  simp only [Stage.next] at h
  split at h
  · cases h
    rfl
  · rename_i hbase
    split at h
    · split at h
      · cases h
      · cases h
        rfl
    · rename_i hopen
      cases h
      obtain ⟨haside, hcreated⟩ := aside_of_openNew ht (by simpa using hbase) hopen
      exact ⟨hmode, haside, hcreated⟩

theorem Stage.go_holds (ht : t.Grounded) {fault : Option Error} {tag : Nat}
    (hs : stage.Holds t cwd path content u)
    (h : stage.next fault tag cwd path content u .go = some (stage', u')) :
    stage'.Holds t cwd path content u' := by
  cases stage with
  | checking =>
    have hu : u = t := hs
    subst hu
    simp only [Stage.next] at h
    split at h
    · cases h
      rfl
    · rename_i mode hmode
      cases h
      exact ⟨rfl, hmode⟩
  | creating mode => exact Stage.creating_holds ht hs h
  | filling mode temp =>
    obtain ⟨hmode, haside, rfl⟩ := hs
    cases h
    exact ⟨hmode, haside, FileTree.set_set_of_none haside.free _ _⟩
  | protecting mode temp =>
    obtain ⟨hmode, haside, rfl⟩ := hs
    cases h
    exact ⟨haside, mode, hmode, FileTree.set_set_of_none haside.free _ _⟩
  | closing temp =>
    cases h
    exact hs
  | moving temp =>
    obtain ⟨haside, mode, hmode, rfl⟩ := hs
    simp only [Stage.next] at h
    split at h
    · cases h
    · split at h
      · cases h
        exact ⟨haside, content, mode, rfl⟩
      · rename_i moved hmoved
        cases h
        obtain ⟨l, hplace, hnot, hset⟩ := rename_of_aside ht haside hmoved
        exact ⟨l, mode, hplace, hnot, hmode, hset⟩
  | removing temp e =>
    obtain ⟨haside, stored, mode, rfl⟩ := hs
    cases h
    exact FileTree.erase_set_of_none haside.free _
  | ended r => cases h

theorem Stage.Step.holds (ht : t.Grounded)
    (h : Stage.Step cwd path content (stage, u) (stage', u'))
    (hs : stage.Holds t cwd path content u) : stage'.Holds t cwd path content u' := by
  cases h with
  | taken fault tag choice hnext =>
    cases choice with
    | go => exact Stage.go_holds ht hs hnext
    | fail stored => exact Stage.fail_holds hs hnext

theorem Stage.Runs.holds (ht : t.Grounded) {state : Stage × FileTree}
    (h : Stage.Runs cwd path content (.checking, t) state) :
    state.1.Holds t cwd path content state.2 := by
  induction h with
  | refl => exact rfl
  | tail _ hstep ih => exact hstep.holds ht ih

/-! ### The whole write -/

/-- What is seen of a write from the tree `t` that has come to a stage with the tree `u`. -/
structure Stage.Whole (t : FileTree) (cwd : Location) (path : Text) (content : Bytes)
    (stage : Stage) (u : FileTree) : Prop where
  /-- The path leads to no other place. -/
  sole : ∀ l, u.place cwd path = .ok l → t.place cwd path = .ok l
  /-- Nor does it end early, unless it went through the link that was replaced. -/
  reached : ∀ l, (t.erase l).place cwd path = .ok l → u.place cwd path = .ok l
  oldOrNew : ∀ l, t.place cwd path = .ok l →
    u.get? l = t.get? l ∨ ∃ mode, u.get? l = some (.file content mode)
  replaced : stage = .ended (.ok ()) → ∃ l mode, t.place cwd path = .ok l ∧
    u.get? l = some (.file content mode) ∧ (∀ m, m ≠ l → u.get? m = t.get? m) ∧
    (∀ e, t.stat cwd path = .ok e → mode = e.mode) ∧
    ∀ f, t.stat cwd path = .error f → f.cause = .noEntry ∧ mode = 0o644
  untouched : ∀ e, stage = .ended (.error e) → u = t

theorem Stage.Whole.of_temp (ht : t.Grounded) {m : Location} (hm : t.get? m = none)
    (hapart : t.place cwd path ≠ .ok m) {b : Bytes} {n : Nat} (hstage : ∀ r, stage ≠ .ended r) :
    stage.Whole t cwd path content (t.set m (.file b n)) where
  sole l hl := FileTree.place_of_set ht (by simp [hm]) hl
  reached l hl :=
    FileTree.place_mono (FileTree.within_set_of_none hm _)
      (FileTree.place_mono (FileTree.erase_within t l) hl)
  oldOrNew l hl := by
    have hne : l ≠ m := by
      rintro rfl
      exact hapart hl
    left
    rw [FileTree.get?_set t (FileTree.ne_root_of_none hm), if_neg hne]
  replaced h := absurd h (hstage _)
  untouched e h := absurd h (hstage _)

theorem Stage.Whole.of_start (hstage : ∀ r, stage ≠ .ended (.ok r)) :
    stage.Whole t cwd path content t where
  sole _ hl := hl
  reached l hl := FileTree.place_mono (FileTree.erase_within t l) hl
  oldOrNew _ _ := .inl rfl
  replaced h := absurd h (hstage _)
  untouched _ _ := rfl

theorem Stage.Whole.of_replaced (ht : t.Grounded) {l : Location} {mode : Nat}
    (hplace : t.place cwd path = .ok l) (hnot : t.get? l ≠ some .directory)
    (hmode : t.replacedMode cwd path = .ok mode) :
    (Stage.ended (.ok ())).Whole t cwd path content (t.set l (.file content mode)) := by
  have hroot : l ≠ [] := FileTree.ne_root_of_get? hnot
  have hview := FileTree.get?_set t hroot (.file content mode)
  constructor
  case sole =>
    intro k hk
    exact FileTree.place_of_set ht hnot hk
  case reached =>
    intro k hk
    have hkl : k = l :=
      Except.ok.inj ((FileTree.place_mono (FileTree.erase_within t k) hk).symm.trans hplace)
    subst hkl
    exact FileTree.place_mono (FileTree.erase_within_set hroot _) hk
  case oldOrNew =>
    intro k hk
    have hkl : k = l := Except.ok.inj (hk.symm.trans hplace)
    right
    exact ⟨mode, by rw [hview, if_pos hkl]⟩
  case replaced =>
    intro _
    refine ⟨l, mode, hplace, by rw [hview, if_pos rfl], fun m hm => by rw [hview, if_neg hm], ?_⟩
    simp only [FileTree.replacedMode] at hmode
    constructor
    · intro e he
      rw [he] at hmode
      exact (Except.ok.inj hmode).symm
    · intro f hf
      simp only [hf] at hmode
      split at hmode
      · rename_i hcause
        exact ⟨hcause, (Except.ok.inj hmode).symm⟩
      · cases hmode
  case untouched =>
    intro e he
    cases he

theorem Stage.Holds.whole (ht : t.Grounded) (h : stage.Holds t cwd path content u) :
    stage.Whole t cwd path content u := by
  cases stage with
  | checking =>
    have hu : u = t := h
    subst hu
    exact .of_start (by simp)
  | creating mode =>
    obtain ⟨rfl, -⟩ := h
    exact .of_start (by simp)
  | filling mode temp | protecting mode temp =>
    obtain ⟨-, haside, rfl⟩ := h
    exact .of_temp ht haside.free haside.apart (by simp)
  | closing temp | moving temp =>
    obtain ⟨haside, mode, -, rfl⟩ := h
    exact .of_temp ht haside.free haside.apart (by simp)
  | removing temp e =>
    obtain ⟨haside, stored, mode, rfl⟩ := h
    exact .of_temp ht haside.free haside.apart (by simp)
  | ended r =>
    cases r with
    | ok _ =>
      obtain ⟨l, mode, hplace, hnot, hmode, rfl⟩ := h
      exact .of_replaced ht hplace hnot hmode
    | error e =>
      have hu : u = t := h
      subst hu
      exact .of_start (by simp)

theorem Stage.runs_filling (mode : Nat) (temp : Temp) (t : FileTree) :
    Stage.Runs cwd path content (.filling mode temp, t)
      (.moving temp, (t.set temp.location (.file content 0o600)).set temp.location
        (.file content mode)) :=
  .tail (.tail (.single (.taken none 0 .go rfl)) (.taken none 0 .go rfl)) (.taken none 0 .go rfl)

theorem Stage.runs_creating {mode tag : Nat} {temp : Temp} {created : FileTree}
    (hcreate : t.createTemp cwd path tag = .ok (temp, created)) :
    Stage.Runs cwd path content (.creating mode, t) (.filling mode temp, created) := by
  simp only [FileTree.createTemp] at hcreate
  split at hcreate
  · cases hcreate
  · rename_i hbase
    obtain ⟨tag', hpath, hopen⟩ := FileTree.openTemp_named hcreate
    obtain ⟨p, l⟩ := temp
    have hp : p = tempPath (Path.parent path) (Path.base path) tag' := hpath
    subst hp
    refine .single (.taken none tag' .go ?_)
    simp only [Stage.next, hbase, Bool.false_eq_true, ↓reduceIte, hopen]

theorem Stage.runs_moving {mode tag : Nat} {temp : Temp} {created : FileTree}
    (hmode : t.replacedMode cwd path = .ok mode)
    (hcreate : t.createTemp cwd path tag = .ok (temp, created)) :
    Stage.Runs cwd path content (.moving temp,
        (created.set temp.location (.file content 0o600)).set temp.location (.file content mode))
      (.ended ((t.replaceFile cwd path content tag).1.mapError (.writing path)),
        (t.replaceFile cwd path content tag).2) := by
  generalize hready : (created.set temp.location (.file content 0o600)).set temp.location
    (.file content mode) = ready
  cases hrename : ready.rename cwd temp.path path with
  | error f =>
    have hreplace : t.replaceFile cwd path content tag =
        (.error (.moving f), ready.erase temp.location) := by
      simp only [FileTree.replaceFile, hmode, hcreate, hready, hrename]
    have hfailed : Stage.Runs cwd path content (.moving temp, ready)
        (.removing temp (.writing path (.moving f)), ready) :=
      .single (.taken none tag .go (by simp only [Stage.next, hrename]))
    rw [hreplace]
    exact hfailed.tail (.taken none tag .go rfl)
  | ok moved =>
    have hreplace : t.replaceFile cwd path content tag = (.ok (), moved) := by
      simp only [FileTree.replaceFile, hmode, hcreate, hready, hrename]
    rw [hreplace]
    exact .single (.taken none tag .go (by simp [Stage.next, hrename, Except.mapError]))

theorem Stage.runs_replaceFile (t : FileTree) (cwd : Location) (path : Text) (content : Bytes)
    (tag : Nat) :
    Stage.Runs cwd path content (.checking, t)
      (.ended ((t.replaceFile cwd path content tag).1.mapError (.writing path)),
        (t.replaceFile cwd path content tag).2) := by
  cases hmode : t.replacedMode cwd path with
  | error f =>
    have hreplace : t.replaceFile cwd path content tag = (.error (.checking f), t) := by
      simp only [FileTree.replaceFile, hmode]
    rw [hreplace]
    exact .single (.taken none tag .go (by simp [Stage.next, hmode, Except.mapError]))
  | ok mode =>
    have hchecked : Stage.Runs cwd path content (.checking, t) (.creating mode, t) :=
      .single (.taken none tag .go (by simp [Stage.next, hmode]))
    cases hcreate : t.createTemp cwd path tag with
    | error f =>
      have hreplace : t.replaceFile cwd path content tag = (.error (.creating f), t) := by
        simp only [FileTree.replaceFile, hmode, hcreate]
      rw [hreplace]
      exact hchecked.tail (.taken (some (.writing path (.creating f))) tag (.fail []) rfl)
    | ok made =>
      exact (hchecked.trans (Stage.runs_creating hcreate)).trans
        ((Stage.runs_filling mode made.1 made.2).trans (Stage.runs_moving hmode hcreate))

/-- Writing a file is all or nothing, whichever of its steps fails and whatever number the temporary
file gets. Writing it at once is one of these runs. -/
theorem Stage.runs_whole (t : FileTree) (cwd : Location) (path : Text) (content : Bytes)
    (ht : t.Grounded) :
    (∀ tag, Stage.Runs cwd path content (.checking, t)
      (.ended ((t.replaceFile cwd path content tag).1.mapError (.writing path)),
        (t.replaceFile cwd path content tag).2)) ∧
    ∀ stage u, Stage.Runs cwd path content (.checking, t) (stage, u) →
      stage.Whole t cwd path content u :=
  ⟨Stage.runs_replaceFile t cwd path content, fun _ _ h => (h.holds ht).whole ht⟩

def linkedTree : FileTree where
  entries := [([['p']], .directory), ([['p'], ['a']], .file [1, 2] 0o600),
    ([['p'], ['b']], .link ['a'])]
  nodup := by decide

/-- A link gives way to a file with the mode of its target. A write that stored one byte of three
removes its temporary file, and the tree is the first one. -/
theorem Stage.runs_whole_linkedTree :
    (∃ u, Stage.Runs [] "p/b".toList [7, 8, 9] (.checking, linkedTree) (.ended (.ok ()), u) ∧
      u.get? [['p'], ['b']] = some (.file [7, 8, 9] 0o600)) ∧
    ∃ temp e u, Stage.Runs [] "p/b".toList [7, 8, 9] (.checking, linkedTree)
        (.removing temp e, u) ∧
      u.get? temp.location = some (.file [7] 0o600) ∧
      Stage.Runs [] "p/b".toList [7, 8, 9] (.checking, linkedTree)
        (.ended (.error e), linkedTree) := by
  obtain ⟨honce, hall⟩ :=
    Stage.runs_whole linkedTree [] "p/b".toList [7, 8, 9] (by decide)
  constructor
  · have hok : (linkedTree.replaceFile [] "p/b".toList [7, 8, 9] 5).1 = .ok () := rfl
    have honce := honce 5
    rw [hok] at honce
    obtain ⟨l, mode, hplace, hfile, -, hmode, -⟩ := (hall _ _ honce).replaced rfl
    have hl : linkedTree.place [] "p/b".toList = .ok [['p'], ['b']] := rfl
    have hm : mode = 0o600 := hmode (.file [1, 2] 0o600) rfl
    cases hl.symm.trans hplace
    exact ⟨_, honce, by rw [hfile, hm]⟩
  · have hcreating : Stage.Runs [] "p/b".toList [7, 8, 9] (.checking, linkedTree)
        (.creating 0o600, linkedTree) := .single (.taken none 5 .go rfl)
    have hfilling := hcreating.tail (.taken none 5 .go rfl)
    have hremoving := hfilling.tail (.taken (some (.reported "disk full")) 5 (.fail [7]) rfl)
    have hended := hremoving.tail (.taken none 5 .go rfl)
    have hleft := (hall _ _ hended).untouched _ rfl
    rw [hleft] at hended
    exact ⟨_, _, _, hremoving, rfl, hended⟩

end AbsoluteImports.SourceFile
