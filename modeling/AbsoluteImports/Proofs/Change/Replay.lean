import AbsoluteImports.Proofs.Document.Form

/-!
# Changes as a difference of lines

The list of changes says all that making imports absolute does to lines: where a line reads
differently, what stood there and what stands there now. Putting the changes into the old lines
gives the new ones. For the lines of a text there are no changes exactly when the text stays,
since a line cannot make up for what another one lost (`list_exact`).
-/

namespace AbsoluteImports.Change

variable {package : Text}

/-- The lines with every change put in its place. -/
def replay (changes : List Change) (lines : List Text) : List Text :=
  changes.foldl (fun lines c => lines.set c.index c.after) lines

/-! ### One line after the other -/

theorem of_mem_listFrom {first : Nat} {lines : List Text} {c : Change}
    (h : c ∈ listFrom package first lines) :
    ∃ k, c.index = first + k ∧ lines[k]? = some c.before ∧
      absoluteLine package c.before = c.after := by
  induction lines generalizing first with
  | nil => cases h
  | cons line rest ih =>
    rw [listFrom_cons, List.mem_append] at h
    rcases h with hhead | hrest
    · split at hhead
      · cases hhead
      · obtain rfl := List.mem_singleton.mp hhead
        exact ⟨0, rfl, rfl, rfl⟩
    · obtain ⟨k, hindex, hbefore, hafter⟩ := ih hrest
      exact ⟨k + 1, by omega, hbefore, hafter⟩

theorem pairwise_listFrom (first : Nat) (lines : List Text) :
    (listFrom package first lines).Pairwise fun c d => c.index < d.index := by
  induction lines generalizing first with
  | nil => exact .nil
  | cons line rest ih =>
    rw [listFrom_cons, List.pairwise_append]
    refine ⟨?_, ih (first + 1), ?_⟩
    · split
      · exact .nil
      · exact List.pairwise_singleton ..
    · intro c hc d hd
      split at hc
      · cases hc
      · obtain rfl := List.mem_singleton.mp hc
        obtain ⟨k, hindex, -⟩ := of_mem_listFrom hd
        show first < d.index
        omega

/-- Of lines in the middle of a replay, those in front are done already. -/
theorem replay_listFrom (done lines : List Text) :
    replay (listFrom package done.length lines) (done ++ lines) =
      done ++ absoluteLines package lines := by
  induction lines generalizing done with
  | nil => rfl
  | cons line rest ih =>
    have hrest := ih (done ++ [absoluteLine package line])
    rw [List.length_append, List.length_singleton, List.append_assoc, List.append_assoc] at hrest
    rw [listFrom_cons, replay, List.foldl_append]
    show replay _ _ = done ++ ([absoluteLine package line] ++ absoluteLines package rest)
    rw [← hrest]
    split
    · rename_i hkept
      rw [hkept]
      rfl
    · rw [List.foldl_cons, List.foldl_nil, List.set_append_right _ _ (Nat.le_refl _), Nat.sub_self]
      rfl

/-! ### The whole list -/

theorem getElem?_absoluteLines (lines : List Text) (i : Nat) :
    (absoluteLines package lines)[i]? = lines[i]?.map (absoluteLine package) :=
  List.getElem?_map

theorem mem_index_list_iff {lines : List Text} {i : Nat} :
    i ∈ (list package lines).map index ↔ (absoluteLines package lines)[i]? ≠ lines[i]? := by
  rw [mem_index_list, getElem?_absoluteLines]
  cases lines[i]? with
  | none => simp
  | some line => simp

theorem of_mem_list {lines : List Text} {c : Change} (h : c ∈ list package lines) :
    lines[c.index]? = some c.before ∧ (absoluteLines package lines)[c.index]? = some c.after := by
  obtain ⟨k, hindex, hbefore, hafter⟩ := of_mem_listFrom h
  rw [Nat.zero_add] at hindex
  rw [getElem?_absoluteLines, hindex, hbefore, Option.map_some, hafter]
  exact ⟨rfl, rfl⟩

/-! ### The text of the lines -/

theorem list_eq_nil_iff_lines {lines : List Text} :
    list package lines = [] ↔ absoluteLines package lines = lines := by
  have hsame : lines.map (absoluteLine package) = lines.map id ↔
      ∀ line ∈ lines, absoluteLine package line = line := List.map_inj_left
  rw [list_eq_nil_iff, ← hsame, List.map_id]
  rfl

theorem absoluteText_of_list_eq_nil {text : Text} {e : Encoding}
    (h : list package (Document.ofText text e).lines = []) : absoluteText package text = text := by
  rw [← Document.text_withLines package text e, list_eq_nil_iff_lines.mp h]
  exact Document.text_ofText text e

theorem list_eq_nil_iff_absoluteText (hfeed : '\n' ∉ package) (text : Text) (e : Encoding) :
    list package (Document.ofText text e).lines = [] ↔ absoluteText package text = text := by
  refine ⟨absoluteText_of_list_eq_nil, fun htext => list_eq_nil_iff_lines.mpr ?_⟩
  have hcut := Document.cut_absoluteText hfeed text
  rw [htext] at hcut
  calc absoluteLines package ((Document.cut text).map Prod.fst)
    _ = ((Document.cut text).map fun p => (absoluteLine package p.1, p.2)).map Prod.fst := by
      rw [absoluteLines, List.map_map, List.map_map]
      rfl
    _ = (Document.cut text).map Prod.fst := by rw [← hcut]

/-- The changes are the difference between the lines before and after: in the order of the lines
and exactly where these differ, with both lines as they are, and enough to replay one list into
the other. The lines of a text have no changes exactly when they are joined to the same text. -/
theorem list_exact (package : Text) (lines : List Text) :
    (absoluteLines package lines).length = lines.length ∧
    ((list package lines).map index).Pairwise (· < ·) ∧
    (∀ i, i ∈ (list package lines).map index ↔
      (absoluteLines package lines)[i]? ≠ lines[i]?) ∧
    (∀ c ∈ list package lines,
      lines[c.index]? = some c.before ∧ (absoluteLines package lines)[c.index]? = some c.after) ∧
    replay (list package lines) lines = absoluteLines package lines ∧
    ('\n' ∉ package → ∀ text e, lines = (Document.ofText text e).lines →
      (list package lines = [] ↔ Document.joined (absoluteLines package lines)
        (Document.ofText text e).endings = text)) := by
  refine ⟨List.length_map .., List.pairwise_map.mpr (pairwise_listFrom 0 lines),
    fun _ => mem_index_list_iff, fun _ => of_mem_list, replay_listFrom [] lines, ?_⟩
  rintro hfeed text e rfl
  rw [list_eq_nil_iff_absoluteText hfeed text e, ← Document.text_withLines package text e]
  rfl

/-- Three lines with three terminators, of which the second and the third are imports. -/
theorem list_exact_mixedEndings :
    let d := Document.ofText "x = 1\nfrom . import a\r\nfrom .b import c".toList .utf8
    (⟨1, "from . import a".toList, "from p import a".toList⟩ : Change) ∈ list ['p'] d.lines ∧
    d.lines[1]? = some "from . import a".toList ∧
    replay (list ['p'] d.lines) d.lines =
      ["x = 1".toList, "from p import a".toList, "from p.b import c".toList] ∧
    Document.joined (absoluteLines ['p'] d.lines) d.endings ≠ d.text := by
  intro d
  obtain ⟨-, -, -, hmem, hreplay, htext⟩ := list_exact ['p'] d.lines
  have hchange : (⟨1, "from . import a".toList, "from p import a".toList⟩ : Change) ∈
      list ['p'] d.lines := by decide
  refine ⟨hchange, (hmem _ hchange).1, hreplay.trans (by decide), fun hsame => ?_⟩
  have hnone := (htext (by decide) _ _ rfl).mpr (hsame.trans (by decide))
  rw [hnone] at hchange
  cases hchange

end AbsoluteImports.Change
