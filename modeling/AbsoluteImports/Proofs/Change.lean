import AbsoluteImports.Document

/-!
# Changes of lines

A change is recorded exactly where the line reads differently afterwards. The text of a
document with its imports made absolute is the old text, line by line, with the terminators
it had.
-/

namespace AbsoluteImports

variable {package line : Text}

/-! ### Lines -/

/-- A line is made absolute exactly when it is an import with one dot that reads
differently afterwards. -/
theorem absolute?_eq_some_iff {text : Text} :
    ImportLine.absolute? package line = some text ↔
      ∃ l, ImportLine.parse? line = some l ∧ l.dots = 1 ∧ text = l.absolute package ∧
        text ≠ line := by
  simp only [ImportLine.absolute?, Option.bind_eq_bind, Option.bind_eq_some_iff]
  constructor
  · rintro ⟨l, hl, h⟩
    split at h
    · cases h
    · rename_i hdots
      split at h
      · cases h
      · rename_i hne
        cases h
        exact ⟨l, hl, by omega, rfl, hne⟩
  · rintro ⟨l, hl, hdots, rfl, hne⟩
    exact ⟨l, hl, by simp [hdots, hne]⟩

theorem absoluteLine_eq_iff :
    absoluteLine package line = line ↔ ImportLine.absolute? package line = none := by
  unfold absoluteLine
  cases h : ImportLine.absolute? package line with
  | none => simp
  | some text =>
    obtain ⟨_, _, _, _, hne⟩ := absolute?_eq_some_iff.mp h
    simpa using hne

namespace Change

/-! ### The list of changes -/

theorem listFrom_cons (first : Nat) (line : Text) (rest : List Text) :
    listFrom package first (line :: rest) =
      (if absoluteLine package line = line then [] else [⟨first, line, absoluteLine package line⟩]) ++
        listFrom package (first + 1) rest := by
  simp only [listFrom, absoluteLine_eq_iff]
  cases h : ImportLine.absolute? package line with
  | none => rfl
  | some text => simp [absoluteLine, h]

theorem listFrom_eq_nil_iff {first : Nat} {lines : List Text} :
    listFrom package first lines = [] ↔ ∀ line ∈ lines, absoluteLine package line = line := by
  induction lines generalizing first with
  | nil => simp [listFrom]
  | cons line rest ih =>
    rw [listFrom_cons, List.append_eq_nil_iff, ih, List.forall_mem_cons]
    refine and_congr_left fun _ => ?_
    split
    · rename_i hkept
      simp [hkept]
    · rename_i hchanged
      simp [hchanged]

theorem list_eq_nil_iff {lines : List Text} :
    list package lines = [] ↔ ∀ line ∈ lines, absoluteLine package line = line :=
  listFrom_eq_nil_iff

theorem mem_index_listFrom {first i : Nat} {lines : List Text} :
    i ∈ (listFrom package first lines).map index ↔
      ∃ k line, i = first + k ∧ lines[k]? = some line ∧ absoluteLine package line ≠ line := by
  induction lines generalizing first with
  | nil => simp [listFrom]
  | cons line rest ih =>
    have hhead : i ∈ (listFrom package first (line :: rest)).map index ↔
        (i = first ∧ absoluteLine package line ≠ line) ∨
          i ∈ (listFrom package (first + 1) rest).map index := by
      rw [listFrom_cons, List.map_append, List.mem_append]
      split
      · rename_i hkept
        simp [hkept]
      · rename_i hchanged
        simp [hchanged]
    rw [hhead, ih]
    constructor
    · rintro (⟨rfl, hne⟩ | ⟨k, line', rfl, hk, hne⟩)
      · exact ⟨0, line, rfl, rfl, hne⟩
      · exact ⟨k + 1, line', by omega, hk, hne⟩
    · rintro ⟨k, line', rfl, hk, hne⟩
      cases k with
      | zero =>
        cases hk
        exact .inl ⟨rfl, hne⟩
      | succ k => exact .inr ⟨k, line', by omega, hk, hne⟩

theorem mem_index_list {i : Nat} {lines : List Text} :
    i ∈ (list package lines).map index ↔
      ∃ line, lines[i]? = some line ∧ absoluteLine package line ≠ line := by
  rw [list, mem_index_listFrom]
  simp

end Change

/-! ### The text of a converted document -/

/-- A text with the imports of its lines made absolute and every terminator kept. -/
def absoluteText (package text : Text) : Text :=
  (Document.cut text).flatMap fun p => absoluteLine package p.1 ++ p.2

theorem Document.joined_map (f : Text → Text) (parts : List (Text × Text)) :
    joined ((parts.map Prod.fst).map f) (parts.map Prod.snd) =
      parts.flatMap fun p => f p.1 ++ p.2 := by
  induction parts with
  | nil => rfl
  | cons p parts ih => simp only [List.map_cons, joined, ih, List.flatMap_cons]

end AbsoluteImports
