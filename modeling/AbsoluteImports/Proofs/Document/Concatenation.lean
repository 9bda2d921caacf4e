import AbsoluteImports.Proofs.Encoding.Rereading

/-!
# Texts one after the other

Behind a line feed a new line begins, whatever the text in front holds. So a text that is empty or
ends in a line feed can be made absolute apart from the text that follows: cutting, the changes of
the lines and joining all go through one text and then through the other (`absolute_append`).
-/

namespace AbsoluteImports

/-! ### Lines one after the other -/

namespace Change

variable {package : Text}

def shift (n : Nat) (c : Change) : Change := { c with index := c.index + n }

theorem listFrom_add (n first : Nat) (lines : List Text) :
    listFrom package (first + n) lines = (listFrom package first lines).map (shift n) := by
  induction lines generalizing first with
  | nil => rfl
  | cons line rest ih =>
    have hrest := ih (first + 1)
    rw [Nat.add_right_comm] at hrest
    rw [listFrom_cons, listFrom_cons, hrest, List.map_append]
    split
    · rfl
    · rfl

theorem listFrom_append (first : Nat) (lines rest : List Text) :
    listFrom package first (lines ++ rest) =
      listFrom package first lines ++ listFrom package (first + lines.length) rest := by
  induction lines generalizing first with
  | nil => rfl
  | cons line lines ih =>
    have hrest := ih (first + 1)
    rw [Nat.add_assoc, Nat.add_comm 1] at hrest
    rw [List.cons_append, listFrom_cons, listFrom_cons, hrest, List.length_cons, List.append_assoc]

theorem list_append (lines rest : List Text) :
    list package (lines ++ rest) =
      list package lines ++ (list package rest).map (shift lines.length) := by
  rw [list, listFrom_append, listFrom_add]
  rfl

end Change

namespace Document

/-! ### Cutting -/

theorem Cut.cut_flatMap_append {parts : List (Text × Text)} (h : Cut parts) (b : Text)
    (hend : (parts.flatMap fun p => p.1 ++ p.2) = [] ∨
      (parts.flatMap fun p => p.1 ++ p.2).getLast? = some '\n') :
    cut ((parts.flatMap fun p => p.1 ++ p.2) ++ b) = parts ++ cut b := by
  induction h with
  | nil => rfl
  | last line hne hline =>
    -- a last line without a terminator does not end in a line feed
    rw [List.flatMap_singleton, List.append_nil] at hend
    rcases hend with hnil | hlast
    · exact absurd hnil hne
    · exact absurd (List.mem_of_getLast? hlast) hline
  | @cons line ending rest hline hending hreturn _ ih =>
    rw [List.flatMap_cons] at hend ⊢
    have hrest : (rest.flatMap fun p => p.1 ++ p.2) = [] ∨
        (rest.flatMap fun p => p.1 ++ p.2).getLast? = some '\n' := by
      by_cases hnil : (rest.flatMap fun p => p.1 ++ p.2) = []
      · exact .inl hnil
      · rcases hend with hempty | hlast
        · exact absurd (List.append_eq_nil_iff.mp hempty).2 hnil
        · rw [List.getLast?_append, List.getLast?_eq_some_getLast hnil, Option.some_or,
            ← List.getLast?_eq_some_getLast hnil] at hlast
          exact .inr hlast
    rw [List.append_assoc, cut_line_append hline hending hreturn, ih hrest, List.cons_append]

theorem cut_append {a : Text} (h : a = [] ∨ a.getLast? = some '\n') (b : Text) :
    cut (a ++ b) = cut a ++ cut b := by
  have hcut := (cut_cut a).cut_flatMap_append b
  rw [flatMap_cut] at hcut
  exact hcut h

/-! ### Making a text absolute -/

def absolute (package : Text) (d : Document) : Except Error Document :=
  d.withLines (absoluteLines package d.lines)

theorem absolute_eq (package : Text) (d : Document) :
    d.absolute package = .ok { d with lines := absoluteLines package d.lines } :=
  if_pos (List.length_map ..)

theorem absoluteText_append (package : Text) {a : Text} (h : a = [] ∨ a.getLast? = some '\n')
    (b : Text) :
    absoluteText package (a ++ b) = absoluteText package a ++ absoluteText package b := by
  rw [absoluteText, cut_append h, List.flatMap_append]
  rfl

/-- A text that is empty or ends in a line feed is made absolute apart from the text behind it: the
new texts are joined to the new text of both, and the changes of the second text follow those of
the first with the lines of the first in front. -/
theorem absolute_append (package : Text) {a : Text} (h : a = [] ∨ a.getLast? = some '\n')
    (b : Text) (e : Encoding) :
    ∃ x y z, (ofText a e).absolute package = .ok x ∧ (ofText b e).absolute package = .ok y ∧
      (ofText (a ++ b) e).absolute package = .ok z ∧ z.text = x.text ++ y.text ∧
      Change.list package (ofText (a ++ b) e).lines =
        Change.list package (ofText a e).lines ++
          (Change.list package (ofText b e).lines).map
            (Change.shift (ofText a e).lines.length) := by
  refine ⟨_, _, _, absolute_eq package _, absolute_eq package _, absolute_eq package _, ?_, ?_⟩
  · simp only [text_withLines]
    exact absoluteText_append package h b
  · have hlines : (ofText (a ++ b) e).lines = (ofText a e).lines ++ (ofText b e).lines := by
      simp only [ofText, cut_append h, List.map_append]
    rw [hlines, Change.list_append]

/-- The package has a line feed in it, and both texts have an import. -/
theorem absolute_append_brokenPackage :
    ∃ x y z, (ofText "\r\nfrom . import a\n".toList .utf8).absolute ['p', '\n'] = .ok x ∧
      (ofText "from .b import c".toList .utf8).absolute ['p', '\n'] = .ok y ∧
      (ofText ("\r\nfrom . import a\n".toList ++ "from .b import c".toList) .utf8).absolute
        ['p', '\n'] = .ok z ∧
      z.text = x.text ++ y.text ∧
      Change.list ['p', '\n']
        (ofText ("\r\nfrom . import a\n".toList ++ "from .b import c".toList) .utf8).lines =
          [⟨1, "from . import a".toList, "from p\n import a".toList⟩,
            ⟨2, "from .b import c".toList, "from p\n.b import c".toList⟩] := by
  obtain ⟨x, y, z, hx, hy, hz, htext, hchanges⟩ :=
    absolute_append ['p', '\n'] (a := "\r\nfrom . import a\n".toList) (.inr (by decide))
      "from .b import c".toList .utf8
  exact ⟨x, y, z, hx, hy, hz, htext, hchanges.trans (by decide)⟩

end Document

end AbsoluteImports
