import AbsoluteImports.Proofs.FileTree.Resolution

/-!
# Replacing a file

Replacing a file goes through a temporary file, and none of it is seen afterwards: a
replacement that failed leaves every entry as it was, and one that succeeded changes the
entry at the path and no other.
-/

namespace AbsoluteImports.FileTree

variable {t : FileTree} {cwd l : Location} {path : Text}

/-! ### The temporary file -/

theorem openNew_ok {t' : FileTree} (h : t.openNew cwd path = .ok (l, t')) :
    t.place cwd path = .ok l ∧ t.get? l = none ∧ t' = t.set l (.file [] 0o600) := by
  unfold openNew at h
  split at h
  · cases h
  · rename_i l' hp
    split at h
    · cases h
    · rename_i hn
      cases h
      exact ⟨hp, hn, rfl⟩

theorem openTemp_ok {dir base : Text} {attempts tag : Nat} {temp : Temp} {created : FileTree}
    (h : t.openTemp cwd dir base attempts tag = .ok (temp, created)) :
    t.place cwd temp.path = .ok temp.location ∧ t.get? temp.location = none ∧
      created = t.set temp.location (.file [] 0o600) := by
  induction attempts generalizing tag with
  | zero =>
    simp only [openTemp] at h
    cases hn : t.openNew cwd (tempPath dir base tag) with
    | error f => rw [hn] at h; cases h
    | ok p =>
      rw [hn] at h
      cases h
      exact openNew_ok hn
  | succ n ih =>
    simp only [openTemp] at h
    cases hn : t.openNew cwd (tempPath dir base tag) with
    | error f =>
      simp only [hn] at h
      split at h
      · exact ih h
      · cases h
    | ok p =>
      rw [hn] at h
      cases h
      exact openNew_ok hn

theorem createTemp_ok {tag : Nat} {temp : Temp} {created : FileTree}
    (h : t.createTemp cwd path tag = .ok (temp, created)) :
    t.place cwd temp.path = .ok temp.location ∧ t.get? temp.location = none ∧
      created = t.set temp.location (.file [] 0o600) := by
  simp only [createTemp] at h
  split at h
  · cases h
  · exact openTemp_ok h

/-! ### Moving it into place -/

theorem rename_ok {old new : Text} {t' : FileTree} (h : t.rename cwd old new = .ok t') :
    ∃ l l' e, t.place cwd old = .ok l ∧ t.place cwd new = .ok l' ∧ t.get? l = some e ∧
      t.get? l' ≠ some .directory ∧ t' = if l = l' then t else (t.erase l).set l' e := by
  unfold rename at h
  simp only at h
  split at h
  · cases h
  · cases h
  · rename_i l l' hl hl'
    split at h
    · cases h
    · cases h
    · rename_i e he hd
      refine ⟨l, l', e, hl, hl', he, hd, ?_⟩
      split at h
      · rename_i hll
        rw [if_pos hll]
        exact (Except.ok.inj h).symm
      · rename_i hll
        rw [if_neg hll]
        exact (Except.ok.inj h).symm

theorem get?_ready {m : Location} (hm : t.get? m = none) (content : Bytes) (mode : Nat)
    (l : Location) :
    (((t.set m (.file [] 0o600)).set m (.file content 0o600)).set m (.file content mode)).get? l =
      if l = m then some (.file content mode) else t.get? l := by
  have hroot : m ≠ [] := ne_root_of_none hm
  simp only [get?_set _ hroot]
  split
  · rfl
  · rfl

/-! ### The whole replacement -/

theorem replaceFile_error {content : Bytes} {tag : Nat} {e : ReplaceError} {left : FileTree}
    (h : t.replaceFile cwd path content tag = (.error e, left)) (m : Location) :
    left.get? m = t.get? m := by
  unfold replaceFile at h
  split at h
  · cases h; rfl
  · rename_i mode hmode
    split at h
    · cases h; rfl
    · rename_i temp created hc
      obtain ⟨-, hn, rfl⟩ := createTemp_ok hc
      have hroot : temp.location ≠ [] := ne_root_of_none hn
      simp only at h
      split at h
      · cases h
        rw [get?_erase _ hroot, get?_ready hn]
        split
        · rename_i hm
          rw [hm, hn]
        · rfl
      · cases h

theorem rename_ready {temp : Text} {m : Location} {content : Bytes} {mode : Nat} {e : Entry}
    {ready renamed : FileTree} (hp : t.place cwd path = .ok l) (he : t.get? l = some e)
    (htp : t.place cwd temp = .ok m) (hn : t.get? m = none)
    (hview : ∀ x, ready.get? x = if x = m then some (.file content mode) else t.get? x)
    (hr : ready.rename cwd temp path = .ok renamed) :
    e ≠ .directory ∧
      ∀ x, renamed.get? x = if x = l then some (.file content mode) else t.get? x := by
  have hlm : l ≠ m := by
    intro hl
    rw [hl, hn] at he
    cases he
  -- both paths still name their places after the temporary file was added
  have hwithin : t.Within ready := by
    intro x e' hx
    have hne : x ≠ m := by
      intro hxm
      rw [hxm, hn] at hx
      cases hx
    rw [hview, if_neg hne, hx]
  obtain ⟨l1, l2, e1, hl1, hl2, he1, hd, rfl⟩ := rename_ok hr
  obtain rfl : m = l1 := Except.ok.inj ((place_mono hwithin htp).symm.trans hl1)
  obtain rfl : l = l2 := Except.ok.inj ((place_mono hwithin hp).symm.trans hl2)
  have hlroot : l ≠ [] := ne_root_of_get? hd
  rw [hview, if_pos rfl] at he1
  rw [hview, if_neg hlm, he] at hd
  refine ⟨fun hdir => hd (by rw [hdir]), fun x => ?_⟩
  rw [if_neg (Ne.symm hlm), get?_set _ hlroot, get?_erase _ (ne_root_of_none hn), hview, ← he1]
  by_cases hx : x = l
  · simp [hx]
  · by_cases hx' : x = m
    · simp [hx', Ne.symm hlm, hn]
    · simp [hx, hx']

/-- A replacement that succeeded is seen at the path and nowhere else. -/
theorem replaceFile_ok {content : Bytes} {tag : Nat} {e : Entry} {left : FileTree}
    (hp : t.place cwd path = .ok l) (he : t.get? l = some e)
    (h : t.replaceFile cwd path content tag = (.ok (), left)) :
    ∃ mode, t.replacedMode cwd path = .ok mode ∧ e ≠ .directory ∧
      ∀ m, left.get? m = if m = l then some (.file content mode) else t.get? m := by
  unfold replaceFile at h
  split at h
  · cases h
  · rename_i mode hmode
    split at h
    · cases h
    · rename_i temp created hc
      obtain ⟨htp, hn, rfl⟩ := createTemp_ok hc
      simp only at h
      split at h
      · cases h
      · rename_i renamed hr
        cases h
        exact ⟨mode, hmode, rename_ready hp he htp hn (get?_ready hn content mode) hr⟩

theorem replacedMode_of_locate {x : Location} {e : Entry} (hl : t.locate cwd path = .ok x)
    (he : t.get? x = some e) : t.replacedMode cwd path = .ok e.mode := by
  simp only [replacedMode, stat, hl, he]

end AbsoluteImports.FileTree
