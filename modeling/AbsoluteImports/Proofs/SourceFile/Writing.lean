import AbsoluteImports.Proofs.FileTree.Overlay
import AbsoluteImports.Proofs.Scan.Presence
import AbsoluteImports.SourceFile

/-!
# Writing a file step by step

A file is replaced in steps: its mode is looked up, a temporary file is made, filled, given the
mode and closed, and then moved over the file; after a failure it is removed again. Between two
steps others may change the tree. `Stage.next` makes one step in the tree that it finds.
`Stage.next_sound` shows what a step keeps when the others put files over the tree in the same
way: the write ends as it does when it is made at once in the first tree with the same number for
its temporary file. What another number can change is said by `FileTree.refusal` alone.
-/

namespace AbsoluteImports

/-! ### Errors without the names of temporary files -/

def FileTree.ReplaceError.unnamed : FileTree.ReplaceError → FileTree.ReplaceError
  | .creating ⟨.open _, c⟩ => .creating ⟨.open [], c⟩
  | .moving ⟨.rename _ path, c⟩ => .moving ⟨.rename [] path, c⟩
  | e => e

def SourceFile.Error.unnamed : SourceFile.Error → SourceFile.Error
  | .writing path e => .writing path e.unnamed
  | e => e

/-! ### The whole write in the first tree -/

namespace FileTree

variable {t u : FileTree} {cwd x : Location} {path : Text} {tag tag' : Nat}

/-- Why no temporary file for a path can be made with a number from `tag` on, if so. -/
def refusal (t : FileTree) (cwd : Location) (path : Text) (tag : Nat) : Option Cause :=
  match t.createTemp cwd path tag with
  | .ok _ => none
  | .error f => some f.cause

theorem replaceFile_of_made (ht : t.LinkFree) (hp : Scan.Present t cwd path)
    (hx : t.locate cwd path = .ok x) {temp : Temp} {created : FileTree}
    (hcreate : t.createTemp cwd path tag = .ok (temp, created)) (content : Bytes) :
    (t.replaceFile cwd path content tag).1 = .ok () := by
  obtain ⟨old, mode, hfile⟩ := hp.file x hx
  have hmode : t.replacedMode cwd path = .ok mode := replacedMode_of_locate hx hfile
  obtain ⟨htp, hn, rfl⟩ := createTemp_ok hcreate
  obtain ⟨l', e', hplace, he', hsame⟩ := place_of_locate hx hfile
  have hlx : l' = x := hsame fun target hlink => ht l' target (hlink ▸ he')
  subst hlx
  have hroot : temp.location ≠ [] := ne_root_of_none hn
  have hwithin := within_set_of_none hn (.file content mode)
  have hready : (t.set temp.location (.file content mode)).get? temp.location =
      some (.file content mode) := by
    rw [get?_set _ hroot, if_pos rfl]
  have htarget : (t.set temp.location (.file content mode)).get? l' ≠ some .directory := by
    rw [hwithin l' _ hfile]
    simp
  have hrename := rename_eq_ok (place_mono hwithin htp) (place_mono hwithin hplace) hready htarget
  simp only [replaceFile, hmode, hcreate, set_set_of_none hn, hrename]

theorem replaceFile_of_refused (hp : Scan.Present t cwd path) (hx : t.locate cwd path = .ok x)
    {f : Failure} (hcreate : t.createTemp cwd path tag = .error f) (content : Bytes) :
    (t.replaceFile cwd path content tag).1 = .error (.creating f) := by
  obtain ⟨old, mode, hfile⟩ := hp.file x hx
  have hmode : t.replacedMode cwd path = .ok mode := replacedMode_of_locate hx hfile
  simp only [replaceFile, hmode, hcreate]

/-- With another number a replacement ends the same, unless the names of temporary files differ in
what is against them. -/
theorem replaceFile_redrawn (ht : t.LinkFree) (hp : Scan.Present t cwd path)
    (hx : t.locate cwd path = .ok x)
    (hrefusal : t.refusal cwd path tag = t.refusal cwd path tag') (content : Bytes) :
    (t.replaceFile cwd path content tag).1.mapError (·.unnamed) =
      (t.replaceFile cwd path content tag').1.mapError (·.unnamed) := by
  obtain ⟨-, hb, -⟩ := resolve_parent ht hp.noSlash hx
  unfold refusal at hrefusal
  cases hc : t.createTemp cwd path tag with
  | ok made =>
    cases hc' : t.createTemp cwd path tag' with
    | ok made' =>
      rw [replaceFile_of_made ht hp hx hc, replaceFile_of_made ht hp hx hc']
    | error f =>
      rw [hc, hc'] at hrefusal
      cases hrefusal
  | error f =>
    cases hc' : t.createTemp cwd path tag' with
    | ok made =>
      rw [hc, hc'] at hrefusal
      cases hrefusal
    | error f' =>
      rw [hc, hc'] at hrefusal
      obtain ⟨p, hcall⟩ := createTemp_error hb hc
      obtain ⟨p', hcall'⟩ := createTemp_error hb hc'
      rw [replaceFile_of_refused hp hx hc, replaceFile_of_refused hp hx hc']
      obtain ⟨call, cause⟩ := f
      obtain ⟨call', cause'⟩ := f'
      cases hcall
      cases hcall'
      cases hrefusal
      rfl

end FileTree

namespace SourceFile

theorem write_unnamed (t : FileTree) (cwd : Location) (path : Text) (d : Document) (tag : Nat) :
    (write t cwd path d tag).1.mapError (·.unnamed) =
      ((t.replaceFile cwd path d.content tag).1.mapError (·.unnamed)).mapError (.writing path) := by
  unfold write
  obtain ⟨r, left, hr⟩ : ∃ r left, t.replaceFile cwd path d.content tag = (r, left) := ⟨_, _, rfl⟩
  rw [hr]
  cases r with
  | error e => rfl
  | ok _ => rfl

/-! ### The steps of a write -/

/-- What comes next in a write. -/
inductive Stage where
  | checking
  | creating (mode : Nat)
  | filling (mode : Nat) (temp : FileTree.Temp)
  | protecting (mode : Nat) (temp : FileTree.Temp)
  | closing (temp : FileTree.Temp)
  | moving (temp : FileTree.Temp)
  /-- The temporary file is removed after the error. -/
  | removing (temp : FileTree.Temp) (e : Error)
  | ended (r : Except Error Unit)

/-- How a step turns out, as far as the tree leaves that open. -/
inductive Choice where
  | go
  /-- The fault of the file strikes; a write may have stored some bytes before. -/
  | fail (stored : Bytes)
  deriving DecidableEq, Repr

/-- One step of writing `content` to a path with `tag` in the name of the temporary file. A file
with a fault ends with that error, at whatever step the fault strikes. A step that the tree does not
allow is not made. -/
def Stage.next (fault : Option Error) (tag : Nat) (cwd : Location) (path : Text) (content : Bytes)
    (t : FileTree) : Stage → Choice → Option (Stage × FileTree)
  | .checking, .go =>
    match t.replacedMode cwd path with
    | .error f => some (.ended (.error (fault.getD (.writing path (.checking f)))), t)
    | .ok mode => some (.creating mode, t)
  | .creating mode, .go =>
    let base := Path.base path
    let temp := FileTree.tempPath (Path.parent path) base tag
    let refused := fun f => some (.ended (.error (fault.getD (.writing path (.creating f)))), t)
    if base.contains '/' then refused ⟨.createTemp ('.' :: base ++ ".*.tmp".toList), .nameHasSlash⟩
    else
      match t.openNew cwd temp with
      -- a number that is taken is drawn again, so that `tag` is the last one
      | .error f => if f.cause = .entryExists then none else refused f
      | .ok (l, created) => some (.filling mode ⟨temp, l⟩, created)
  | .filling mode temp, .go =>
    some (.protecting mode temp, t.set temp.location (.file content 0o600))
  | .protecting mode temp, .go => some (.closing temp, t.set temp.location (.file content mode))
  | .closing temp, .go => some (.moving temp, t)
  | .moving temp, .go =>
    match fault with
    | some _ => none
    | none =>
      match t.rename cwd temp.path path with
      | .error f => some (.removing temp (.writing path (.moving f)), t)
      | .ok moved => some (.ended (.ok ()), moved)
  | .removing temp e, .go => some (.ended (.error e), t.erase temp.location)
  | .checking, .fail _ => fault.map fun e => (.ended (.error e), t)
  | .creating _, .fail _ => fault.map fun e => (.ended (.error e), t)
  | .filling _ temp, .fail stored =>
    fault.map fun e => (.removing temp e, t.set temp.location (.file stored 0o600))
  | .protecting _ temp, .fail _ => fault.map fun e => (.removing temp e, t)
  | .closing temp, .fail _ => fault.map fun e => (.removing temp e, t)
  | .moving temp, .fail _ => fault.map fun e => (.removing temp e, t)
  | _, _ => none

/-! ### What holds between the steps -/

/-- A temporary file with a number, at a place where the first tree has nothing. -/
structure Beside (t : FileTree) (cwd : Location) (path : Text) (tag : Nat)
    (temp : FileTree.Temp) : Prop where
  named : temp.path = FileTree.tempPath (Path.parent path) (Path.base path) tag
  placed : t.place cwd temp.path = .ok temp.location
  free : t.get? temp.location = none

/-- A write is at a stage, with a file of its own in the tree or none; `t` is the tree before
anything was written. -/
def Stage.Sound (fault : Option Error) (tag : Nat) (t : FileTree) (cwd : Location) (path : Text)
    (content : Bytes) (mark : Option (Location × Entry)) : Stage → Prop
  | .checking => mark = none
  | .creating mode => mark = none ∧ t.replacedMode cwd path = .ok mode
  | .filling mode temp => t.replacedMode cwd path = .ok mode ∧ Beside t cwd path tag temp ∧
      mark = some (temp.location, .file [] 0o600)
  | .protecting mode temp => t.replacedMode cwd path = .ok mode ∧ Beside t cwd path tag temp ∧
      mark = some (temp.location, .file content 0o600)
  | .closing temp | .moving temp => Beside t cwd path tag temp ∧
      ∃ mode, t.replacedMode cwd path = .ok mode ∧ mark = some (temp.location, .file content mode)
  | .removing temp e => fault = some e ∧ Beside t cwd path tag temp ∧
      ∃ stored mode, mark = some (temp.location, .file stored mode)
  | .ended (.ok _) => fault = none ∧ (t.replaceFile cwd path content tag).1 = .ok () ∧
      ∃ l mode, t.locate cwd path = .ok l ∧ t.replacedMode cwd path = .ok mode ∧
        mark = some (l, .file content mode)
  | .ended (.error e) => mark = none ∧ (fault = some e ∨ fault = none ∧
      ∃ e', (t.replaceFile cwd path content tag).1 = .error e' ∧ e = .writing path e')

end SourceFile

/-! ### Calls in the tree with the files of others -/

namespace FileTree

variable {t u : FileTree} {cwd x : Location} {path : Text} {tag : Nat}
  {own : Nat → Location → Prop} {marks : Nat → Option (Location × Entry)} {i : Nat}

theorem Overlay.locate_eq (ht : t.LinkFree) (hown : OwnFiles t own)
    (h : Overlay t own marks u) (hp : Scan.Present t cwd path) :
    u.locate cwd path = t.locate cwd path :=
  locate_grown (h.grown hown) ht hp.found

theorem Overlay.replacedMode_eq (ht : t.LinkFree) (hown : OwnFiles t own)
    (h : Overlay t own marks u) (hp : Scan.Present t cwd path)
    (hx : t.locate cwd path = .ok x) (hi : own i x) (hm : marks i = none) :
    u.replacedMode cwd path = t.replacedMode cwd path := by
  have hsame := h.get?_own hown hi fun e he => by
    rw [hm] at he
    cases he
  unfold replacedMode stat
  rw [h.locate_eq ht hown hp, hx]
  simp only [hsame]

theorem Overlay.rename_eq (ht : t.LinkFree) (hown : OwnFiles t own) (h : Overlay t own marks u)
    (hp : Scan.Present t cwd path) (hx : t.locate cwd path = .ok x) (hi : own i x)
    {temp : Temp} (hb : SourceFile.Beside t cwd path tag temp) {e : Entry}
    (hm : marks i = some (temp.location, e)) :
    u.rename cwd temp.path path = .ok ((u.erase temp.location).set x e) := by
  obtain ⟨old, mode, hfile⟩ := hp.file x hx
  have hne : temp.location ≠ x := by
    intro heq
    rw [← heq, hb.free] at hfile
    cases hfile
  have hold : u.place cwd temp.path = .ok temp.location := by
    rw [place_grown (h.grown hown) ht (by rw [hb.placed]; nofun), hb.placed]
  -- nobody has put anything over the file itself
  have hsame : u.get? x = some (.file old mode) := by
    rw [h.get?_own hown hi ?_, hfile]
    intro e' he'
    rw [hm] at he'
    cases he'
    exact hne rfl
  have hux : u.locate cwd path = .ok x := (h.locate_eq ht hown hp).trans hx
  obtain ⟨l', e', hplace, he', hlink⟩ := place_of_locate hux hsame
  have hlx : l' = x := hlink fun target ht' =>
    (h.grown hown).linkFree ht l' target (ht' ▸ he')
  subst hlx
  have hrename := rename_eq_ok hold hplace (h.shown hm) (by rw [hsame]; simp)
  rw [if_neg hne] at hrename
  exact hrename

end FileTree

/-! ### One step -/

namespace SourceFile

variable {fault : Option Error} {tag : Nat} {t u u' : FileTree} {cwd x : Location} {path : Text}
  {content : Bytes} {own : Nat → Location → Prop} {marks : Nat → Option (Location × Entry)}
  {i : Nat} {stage stage' : Stage} {choice : Choice}

theorem Beside.ne_root {temp : FileTree.Temp} (h : Beside t cwd path tag temp) :
    temp.location ≠ [] :=
  FileTree.ne_root_of_none h.free

theorem Stage.checking_sound (ht : t.LinkFree) (hown : FileTree.OwnFiles t own)
    (hp : Scan.Present t cwd path) (hx : t.locate cwd path = .ok x) (hi : own i x)
    (h : FileTree.Overlay t own marks u)
    (hs : Stage.checking.Sound fault tag t cwd path content (marks i))
    (hnext : Stage.next fault tag cwd path content u .checking .go = some (stage', u')) :
    ∃ mark, stage'.Sound fault tag t cwd path content mark ∧
      FileTree.Overlay t own (Function.update marks i mark) u' := by
  obtain ⟨old, mode, hfile⟩ := hp.file x hx
  have hmode : t.replacedMode cwd path = .ok mode := FileTree.replacedMode_of_locate hx hfile
  have hmark : marks i = none := hs
  simp only [Stage.next, h.replacedMode_eq ht hown hp hx hi hs, hmode] at hnext
  cases hnext
  exact ⟨none, ⟨rfl, hmode⟩, hmark ▸ h.keep i⟩

/-- A temporary file is made: at a new place, or not for the cause that holds in the first tree. -/
theorem Stage.creating_sound (ht : t.LinkFree) (hown : FileTree.OwnFiles t own)
    (hp : Scan.Present t cwd path) (hx : t.locate cwd path = .ok x)
    (h : FileTree.Overlay t own marks u) {mode : Nat}
    (hs : (Stage.creating mode).Sound fault tag t cwd path content (marks i))
    (hnext : Stage.next fault tag cwd path content u (.creating mode) .go = some (stage', u')) :
    ∃ mark, stage'.Sound fault tag t cwd path content mark ∧
      FileTree.Overlay t own (Function.update marks i mark) u' := by
  obtain ⟨hmark, hmode⟩ := hs
  obtain ⟨-, hb, -⟩ := FileTree.resolve_parent ht hp.noSlash hx
  have hslash : ((Path.base path).contains '/') = false := by simpa using hb
  simp only [Stage.next, hslash, Bool.false_eq_true, ↓reduceIte] at hnext
  rcases FileTree.place_tempPath ht hp.noSlash hx tag with ⟨l, hl⟩ | ⟨c, hc, hentry, hexists⟩
  · have hplace := FileTree.place_grown (h.grown hown) ht (by rw [hl]; nofun)
    rw [hl] at hplace
    by_cases hfree : u.get? l = none
    · rw [FileTree.openNew_of_free hplace hfree] at hnext
      cases hnext
      obtain ⟨hfirst, hnobody⟩ := h.fresh hfree
      refine ⟨some (l, .file [] 0o600), ⟨hmode, ⟨rfl, hl, hfirst⟩, rfl⟩, ?_⟩
      refine h.put (FileTree.ne_root_of_none hfree) (.inl hfirst) ?_ ?_ [] 0o600
      · intro j e hj
        exact absurd hj (hnobody j e)
      · intro l' e hi
        rw [hmark] at hi
        cases hi
    · rw [FileTree.openNew_of_taken hplace hfree] at hnext
      cases hnext
  · have hplace := FileTree.place_grown (h.grown hown) ht (by rw [hc]; simpa using hentry)
    rw [hc] at hplace
    simp only [FileTree.openNew_of_refused hplace, hexists, ↓reduceIte] at hnext
    cases hnext
    refine ⟨none, ⟨rfl, ?_⟩, hmark ▸ h.keep i⟩
    cases fault with
    | some e => exact .inl rfl
    | none =>
      have hcreate := FileTree.createTemp_of_refused hb hc hexists
      exact .inr ⟨rfl, _, FileTree.replaceFile_of_refused hp hx hcreate content, rfl⟩

theorem Stage.moving_sound (ht : t.LinkFree) (hown : FileTree.OwnFiles t own)
    (hp : Scan.Present t cwd path) (hx : t.locate cwd path = .ok x) (hi : own i x)
    (h : FileTree.Overlay t own marks u) {temp : FileTree.Temp}
    (hs : (Stage.moving temp).Sound fault tag t cwd path content (marks i))
    (hnext : Stage.next fault tag cwd path content u (.moving temp) .go = some (stage', u')) :
    ∃ mark, stage'.Sound fault tag t cwd path content mark ∧
      FileTree.Overlay t own (Function.update marks i mark) u' := by
  obtain ⟨hbeside, mode, hmode, hmark⟩ := hs
  obtain ⟨-, hb, -⟩ := FileTree.resolve_parent ht hp.noSlash hx
  obtain ⟨old, m, hfile⟩ := hp.file x hx
  have hroot : x ≠ [] := FileTree.ne_root_of_get? (t := t) (by rw [hfile]; simp)
  simp only [Stage.next, h.rename_eq ht hown hp hx hi hbeside hmark] at hnext
  cases fault with
  | some e => cases hnext
  | none =>
    cases hnext
    have hcreate := FileTree.createTemp_of_free hb (hbeside.named ▸ hbeside.placed) hbeside.free
    refine ⟨some (x, .file content mode),
      ⟨rfl, FileTree.replaceFile_of_made ht hp hx hcreate content, x, mode, hx, hmode, rfl⟩, ?_⟩
    -- the temporary file goes away, and then nobody has a file at the place of this one
    have htaken := h.take hmark hbeside.free
    have hput := htaken.put hroot (.inr hi) ?_ ?_ content mode
    · rwa [Function.update_idem] at hput
    · intro j e hj
      rcases htaken.spot hj with hn | hj'
      · rw [hfile] at hn
        cases hn
      · exact hown.apart hj' hi
    · intro l' e hl'
      rw [Function.update_self] at hl'
      cases hl'

theorem Stage.failed_sound (h : FileTree.Overlay t own marks u) {e : Error} {stored : Bytes}
    (hs : stage.Sound (some e) tag t cwd path content (marks i))
    (hnext : stage.next (some e) tag cwd path content u (.fail stored) = some (stage', u')) :
    ∃ mark, stage'.Sound (some e) tag t cwd path content mark ∧
      FileTree.Overlay t own (Function.update marks i mark) u' := by
  cases stage with
  | checking =>
    have hmark : marks i = none := hs
    cases hnext
    exact ⟨none, ⟨rfl, .inl rfl⟩, hmark ▸ h.keep i⟩
  | creating mode =>
    obtain ⟨hmark, -⟩ := hs
    cases hnext
    exact ⟨none, ⟨rfl, .inl rfl⟩, hmark ▸ h.keep i⟩
  | filling mode temp =>
    obtain ⟨-, hbeside, hmark⟩ := hs
    cases hnext
    exact ⟨_, ⟨rfl, hbeside, stored, 0o600, rfl⟩, h.rewrite hmark hbeside.ne_root stored 0o600⟩
  | protecting mode temp =>
    obtain ⟨-, hbeside, hmark⟩ := hs
    cases hnext
    exact ⟨marks i, ⟨rfl, hbeside, content, 0o600, hmark⟩, h.keep i⟩
  | closing temp =>
    obtain ⟨hbeside, mode, -, hmark⟩ := hs
    cases hnext
    exact ⟨marks i, ⟨rfl, hbeside, content, mode, hmark⟩, h.keep i⟩
  | moving temp =>
    obtain ⟨hbeside, mode, -, hmark⟩ := hs
    cases hnext
    exact ⟨marks i, ⟨rfl, hbeside, content, mode, hmark⟩, h.keep i⟩
  | removing temp e' => cases hnext
  | ended r => cases hnext

theorem Stage.next_of_no_fault (stage : Stage) (stored : Bytes) :
    stage.next none tag cwd path content u (.fail stored) = none := by
  cases stage with
  | _ => rfl

theorem Stage.made_sound (ht : t.LinkFree) (hown : FileTree.OwnFiles t own)
    (hp : Scan.Present t cwd path) (hx : t.locate cwd path = .ok x) (hi : own i x)
    (h : FileTree.Overlay t own marks u)
    (hs : stage.Sound fault tag t cwd path content (marks i))
    (hnext : stage.next fault tag cwd path content u .go = some (stage', u')) :
    ∃ mark, stage'.Sound fault tag t cwd path content mark ∧
      FileTree.Overlay t own (Function.update marks i mark) u' := by
  cases stage with
  | checking => exact Stage.checking_sound ht hown hp hx hi h hs hnext
  | creating mode => exact Stage.creating_sound ht hown hp hx h hs hnext
  | filling mode temp =>
    obtain ⟨hmode, hbeside, hmark⟩ := hs
    cases hnext
    exact ⟨_, ⟨hmode, hbeside, rfl⟩, h.rewrite hmark hbeside.ne_root content 0o600⟩
  | protecting mode temp =>
    obtain ⟨hmode, hbeside, hmark⟩ := hs
    cases hnext
    exact ⟨_, ⟨hbeside, mode, hmode, rfl⟩, h.rewrite hmark hbeside.ne_root content mode⟩
  | closing temp =>
    cases hnext
    exact ⟨marks i, hs, h.keep i⟩
  | moving temp => exact Stage.moving_sound ht hown hp hx hi h hs hnext
  | removing temp e =>
    obtain ⟨hfault, hbeside, stored, mode, hmark⟩ := hs
    cases hnext
    exact ⟨none, ⟨rfl, .inl hfault⟩, h.take hmark hbeside.free⟩
  | ended r => cases hnext

/-- Every step of a write keeps what holds between the steps, whatever files the others have put
over the tree. -/
theorem Stage.next_sound (ht : t.LinkFree) (hown : FileTree.OwnFiles t own)
    (hp : Scan.Present t cwd path) (hx : t.locate cwd path = .ok x) (hi : own i x)
    (h : FileTree.Overlay t own marks u)
    (hs : stage.Sound fault tag t cwd path content (marks i))
    (hnext : stage.next fault tag cwd path content u choice = some (stage', u')) :
    ∃ mark, stage'.Sound fault tag t cwd path content mark ∧
      FileTree.Overlay t own (Function.update marks i mark) u' := by
  cases choice with
  | go => exact Stage.made_sound ht hown hp hx hi h hs hnext
  | fail stored =>
    cases fault with
    | none => cases (Stage.next_of_no_fault stage stored).symm.trans hnext
    | some e => exact Stage.failed_sound h hs hnext

end SourceFile

end AbsoluteImports
