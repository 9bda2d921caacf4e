import AbsoluteImports.Proofs.Change.Replay
import AbsoluteImports.Proofs.Conversion.FileStep
import AbsoluteImports.Proofs.Document.Concatenation

/-!
# Conversion and storage

What becomes of a file depends on its text and not on how the text is stored: in one of four
encodings, with a line feed alone or with a carriage return before each. The new text is stored as
the old one was, and the changes are the same for every way of storing (`convertFile_storage`).
-/

namespace AbsoluteImports

/-! ### Carriage returns -/

namespace Text

def withReturns (text : Text) : Text :=
  text.flatMap fun c => if c = '\n' then ['\r', '\n'] else [c]

theorem withReturns_append (a b : Text) :
    withReturns (a ++ b) = withReturns a ++ withReturns b := List.flatMap_append

theorem withReturns_of_not_mem {text : Text} (h : '\n' ∉ text) : withReturns text = text := by
  induction text with
  | nil => rfl
  | cons c r ih =>
    have hc : c ≠ '\n' := fun hc => h (by simp [hc])
    have hr : '\n' ∉ r := fun hr => h (by simp [hr])
    rw [withReturns, List.flatMap_cons, if_neg hc]
    exact congrArg (c :: ·) (ih hr)

theorem head?_withReturns {text : Text} {c : Char} (hc : c ≠ '\r') (h : text.head? ≠ some c) :
    (withReturns text).head? ≠ some c := by
  cases text with
  | nil => exact h
  | cons d r =>
    rw [withReturns, List.flatMap_cons]
    split
    · simpa using Ne.symm hc
    · exact h

end Text

namespace Document

open Text (withReturns withReturns_append withReturns_of_not_mem)

theorem withReturns_flatMap {parts : List (Text × Text)} {f : Text → Text}
    (h : ∀ p ∈ parts, '\n' ∉ f p.1) :
    withReturns (parts.flatMap fun p => f p.1 ++ p.2) =
      parts.flatMap fun p => f p.1 ++ withReturns p.2 := by
  induction parts with
  | nil => rfl
  | cons p rest ih =>
    rw [List.flatMap_cons, List.flatMap_cons, withReturns_append, withReturns_append,
      withReturns_of_not_mem (h p (List.mem_cons_self ..)),
      ih fun q hq => h q (List.mem_cons_of_mem _ hq)]

theorem Cut.withReturns {parts : List (Text × Text)} (h : Cut parts)
    (hreturn : ∀ p ∈ parts, '\r' ∉ p.2) :
    Cut (parts.map fun p => (p.1, Text.withReturns p.2)) := by
  induction h with
  | nil => exact .nil
  | last line hne hline => exact .last line hne hline
  | cons line ending hline hending _ _ ih =>
    have hrest := ih fun p hp => hreturn p (List.mem_cons_of_mem _ hp)
    rcases hending with rfl | rfl
    · exact .cons line ['\r', '\n'] hline (.inr rfl) (by simp) hrest
    · exact absurd (List.mem_cons_self ..) (hreturn _ (List.mem_cons_self ..))

theorem cut_withReturns {text : Text} (h : '\r' ∉ text) :
    cut (withReturns text) = (cut text).map fun p => (p.1, withReturns p.2) := by
  have hparts := (cut_cut text).of_mem
  have hreturn : ∀ p ∈ cut text, '\r' ∉ p.2 := by
    intro p hp hmem
    apply h
    rw [← flatMap_cut text, List.mem_flatMap]
    exact ⟨p, hp, List.mem_append_right _ hmem⟩
  calc cut (withReturns text)
    _ = cut (withReturns ((cut text).flatMap fun p => id p.1 ++ p.2)) :=
      congrArg (fun s => cut (withReturns s)) (flatMap_cut text).symm
    _ = cut (((cut text).map fun p => (p.1, withReturns p.2)).flatMap fun p => p.1 ++ p.2) := by
      rw [withReturns_flatMap fun p hp => (hparts p hp).1, List.flatMap_map]
      rfl
    _ = (cut text).map fun p => (p.1, withReturns p.2) :=
      ((cut_cut text).withReturns hreturn).cut_flatMap

theorem lines_withReturns {text : Text} (h : '\r' ∉ text) (e : Encoding) :
    (ofText (withReturns text) e).lines = (ofText text e).lines := by
  simp only [ofText, cut_withReturns h, List.map_map]
  rfl

theorem absoluteText_withReturns {package text : Text} (hfeed : '\n' ∉ package)
    (h : '\r' ∉ text) :
    absoluteText package (withReturns text) = withReturns (absoluteText package text) := by
  have hfree : ∀ p ∈ cut text, '\n' ∉ absoluteLine package p.1 := fun p hp =>
    lineFeed_not_mem_absoluteLine hfeed ((cut_cut text).of_mem p hp).1
  rw [absoluteText, cut_withReturns h, List.flatMap_map, absoluteText, withReturns_flatMap hfree]

end Document

/-! ### One file -/

namespace Conversion

variable {c : Converter} {cwd : Location} {package path : Text} {t : FileTree}

/-- What became of a file that held `before`, when its lines have `changes` and its content is to
be `after`; `tag` is the number for its temporary file. -/
inductive Became (c : Converter) (cwd : Location) (t : FileTree) (path : Text) (tag : Nat)
    (before after : Bytes) (changes : List Change) : Result → FileTree → Prop
  | kept (hnone : changes = []) (hsame : after = before) :
      Became c cwd t path tag before after changes ⟨path, .unchanged, [], none⟩ t
  | reported (hsome : changes ≠ []) (hdry : c.dryRun = true) :
      Became c cwd t path tag before after changes ⟨path, .updated, changes, none⟩ t
  | replaced (l : Location) (mode : Nat) (left : FileTree) (hsome : changes ≠ [])
      (hdry : c.dryRun = false) (hplace : t.place cwd path = .ok l)
      (hmode : t.replacedMode cwd path = .ok mode)
      (hleft : ∀ m, left.get? m = if m = l then some (.file after mode) else t.get? m) :
      Became c cwd t path tag before after changes ⟨path, .updated, changes, none⟩ left
  /-- The new content could not be put in place of the old one. -/
  | refused (e : FileTree.ReplaceError) (left : FileTree) (hsome : changes ≠ [])
      (hdry : c.dryRun = false) (hwrite : t.replaceFile cwd path after tag = (.error e, left))
      (hleft : ∀ m, left.get? m = t.get? m) :
      Became c cwd t path tag before after changes ⟨path, .failed, [], some (.writing path e)⟩
        left

/-- A file that holds `before`, wherever it is, is converted to `after` with the given changes. -/
def Turns (package : Text) (before after : Bytes) (changes : List Change) : Prop :=
  ∀ (c : Converter) (cwd : Location) (tags : Text → Nat) (t : FileTree) (path : Text),
    c.files = .plain cwd tags → t.readFile cwd path = .ok before →
    Became c cwd t path (tags path) before after changes (convertFile c package t path).result
      (convertFile c package t path).tree

/-- A file of a tree whose content is read as `text`, stored as `e`, becomes that text made
absolute, stored as `e`. -/
theorem Handles.became {r : Result} {wrote : Bool} {left : FileTree} {text : Text} {e : Encoding}
    {tags : Text → Nat} (h : Handles c package t path r wrote left)
    (hfiles : c.files = .plain cwd tags)
    (hread : t.readFile cwd path = .ok (Encoding.encode text e))
    (hdocument : c.files.read t path = .ok (Document.ofText text e)) :
    Became c cwd t path (tags path) (Encoding.encode text e)
      (Encoding.encode (absoluteText package text) e)
      (Change.list package (Document.ofText text e).lines) r left := by
  cases h with
  | unread e' hread' => cases hread'.symm.trans hdocument
  | still d hread' hnone =>
    obtain rfl : d = Document.ofText text e := Except.ok.inj (hread'.symm.trans hdocument)
    exact .kept hnone (by rw [Change.absoluteText_of_list_eq_nil hnone])
  | reported d hread' hsome hdry =>
    obtain rfl : d = Document.ofText text e := Except.ok.inj (hread'.symm.trans hdocument)
    exact .reported hsome hdry
  | written d left hread' hsome hdry hwrite =>
    obtain rfl : d = Document.ofText text e := Except.ok.inj (hread'.symm.trans hdocument)
    rw [hfiles] at hwrite
    have hreplace := SourceFile.write_ok hwrite
    rw [content_convertedDocument] at hreplace
    obtain ⟨x, _, hx, hfile⟩ := FileTree.readFile_eq_ok.mp hread
    obtain ⟨l, old, hplace, hold, -⟩ := FileTree.place_of_locate hx hfile
    obtain ⟨mode, hmode, -, hleft⟩ := FileTree.replaceFile_ok hplace hold hreplace
    exact .replaced l mode left hsome hdry hplace hmode hleft
  | refused d e' left hread' hsome hdry hwrite =>
    obtain rfl : d = Document.ofText text e := Except.ok.inj (hread'.symm.trans hdocument)
    rw [hfiles] at hwrite
    obtain ⟨e₀, rfl, hreplace⟩ := SourceFile.write_eq_error hwrite
    rw [content_convertedDocument] at hreplace
    exact .refused e₀ left hsome hdry hreplace (FileTree.replaceFile_error hreplace)

theorem turns_of_decode {text : Text} {e : Encoding}
    (hdecode : Encoding.decode (Encoding.encode text e) = .ok (text, e)) :
    Turns package (Encoding.encode text e) (Encoding.encode (absoluteText package text) e)
      (Change.list package (Document.ofText text e).lines) := by
  intro c cwd tags t path hfiles hread
  have hdocument : c.files.read t path = .ok (Document.ofText text e) := by
    simp only [hfiles, FileAccess.plain, SourceFile.read, hread, Document.ofContent, hdecode,
      Except.map]
  exact (convertFile_handles c package t path).became hfiles hread hdocument

/-! ### Eight ways to store a text -/

/-- A text without carriage returns is converted to one and the same text, with the same changes,
in whichever encoding it is stored; and with carriage returns in front of its line feeds it is
converted to that text with carriage returns. -/
theorem convertFile_storage {package text : Text} (hfeed : '\n' ∉ package) (hreturn : '\r' ∉ text)
    (hmark : text.head? ≠ some Encoding.markChar) :
    ∃ converted changes,
      (∀ e, ∃ d, (Document.ofText text e).absolute package = .ok d ∧ d.text = converted ∧
        Change.list package (Document.ofText text e).lines = changes) ∧
      ∀ e,
        Turns package (Encoding.encode text e) (Encoding.encode converted e) changes ∧
        Turns package (Encoding.encode text.withReturns e)
          (Encoding.encode converted.withReturns e) changes := by
  refine ⟨absoluteText package text, Change.list package ((Document.cut text).map Prod.fst),
    fun e => ⟨_, Document.absolute_eq package _, Document.text_withLines package text e, rfl⟩,
    fun e => ⟨?_, ?_⟩⟩
  · exact turns_of_decode (Encoding.decode_encode fun _ => hmark)
  · have hhead : text.withReturns.head? ≠ some Encoding.markChar :=
      Text.head?_withReturns (by decide) hmark
    have hread : Encoding.decode (Encoding.encode text.withReturns e) =
        .ok (text.withReturns, e) := Encoding.decode_encode fun _ => hhead
    rw [← Document.absoluteText_withReturns hfeed hreturn]
    have hturns : Turns package _ _ _ := turns_of_decode hread
    rwa [Document.lines_withReturns hreturn e] at hturns

/-- A tree with a file in UTF-16 that has a carriage return in front of its line feed. -/
def wideTree : FileTree where
  entries := [(["m.py".toList],
    .file (Encoding.encode "from .a import b\r\nx".toList (.utf16 .big)) 0o644)]
  nodup := by decide

/-- The text without its carriage return tells what the file becomes. -/
theorem convertFile_storage_wideTree :
    let run := convertFile ⟨.plain [], 1, [], false⟩ ['p'] wideTree "m.py".toList
    run.result = ⟨"m.py".toList, .updated,
      [⟨0, "from .a import b".toList, "from p.a import b".toList⟩], none⟩ ∧
    run.tree.get? ["m.py".toList] =
      some (.file (Encoding.encode "from p.a import b\r\nx".toList (.utf16 .big)) 0o644) := by
  intro run
  obtain ⟨converted, changes, hconverts, hturns⟩ :=
    @convertFile_storage ['p'] "from .a import b\nx".toList (by decide) (by decide) (by decide)
  obtain ⟨d, hd, rfl, rfl⟩ := hconverts .utf8
  cases hd
  have hbecame := (hturns (.utf16 .big)).2 ⟨.plain [], 1, [], false⟩ [] _ wideTree "m.py".toList
    rfl rfl
  have hupdated : run.result.outcome = .updated := by decide
  change Became _ _ _ _ _ _ _ _ run.result run.tree at hbecame
  generalize run.result = result at hbecame hupdated ⊢
  generalize run.tree = left at hbecame ⊢
  cases hbecame with
  | kept hnone hsame => cases hupdated
  | reported hsome hdry => cases hdry
  | replaced l mode left hsome hdry hplace hmode hleft =>
    have hl : ["m.py".toList] = l := Except.ok.inj hplace
    have hm : 0o644 = mode := Except.ok.inj hmode
    rw [hleft, ← hl, ← hm, if_pos rfl]
    exact ⟨by decide, by decide⟩
  | refused e left hsome hdry hwrite hsame => cases hupdated

end Conversion

end AbsoluteImports
