import AbsoluteImports.Conversion
import AbsoluteImports.Proofs.Change
import AbsoluteImports.Proofs.FileTree.Replacement

/-!
# Converting one file

`Converts` says once what converting a file can do: fail and leave every entry as it was,
find nothing to change, report changes without writing, or replace one entry by the file with
its imports made absolute. `convertFile_converts` shows that nothing else happens, for the
files of a tree and for a store on top of it whose calls may fail at any time.
-/

namespace AbsoluteImports

/-- A store that does to a tree what the plain one does, except that any call may fail; a
write that failed leaves every entry as it was. -/
structure FileAccess.PlainOrFails (cwd : Location) (files : FileAccess) : Prop where
  read : ∀ t path, files.read t path = SourceFile.read t cwd path ∨
    ∃ e, files.read t path = .error e
  write : ∀ t path d, (∃ tag, files.write t path d = SourceFile.write t cwd path d tag) ∨
    ∃ e left, files.write t path d = (.error e, left) ∧ ∀ l, left.get? l = t.get? l

theorem FileAccess.plainOrFails_plain (cwd : Location)
    (tags : Text → Nat := fun _ => FileTree.firstTag) :
    (FileAccess.plain cwd tags).PlainOrFails cwd :=
  ⟨fun _ _ => .inl rfl, fun _ path _ => .inl ⟨tags path, rfl⟩⟩

/-! ### Reading and writing -/

namespace FileTree

theorem readFile_eq_ok {t : FileTree} {cwd : Location} {path : Text} {content : Bytes} :
    t.readFile cwd path = .ok content ↔
      ∃ l mode, t.locate cwd path = .ok l ∧ t.get? l = some (.file content mode) := by
  unfold readFile
  cases hl : t.locate cwd path with
  | error c => simp
  | ok l =>
    cases he : t.get? l with
    | none => simp [he]
    | some e =>
      cases e with
      | file content' mode =>
        simp only [he, Except.ok.injEq]
        constructor
        · rintro rfl
          exact ⟨l, mode, rfl, he⟩
        · rintro ⟨_, mode', rfl, h⟩
          rw [he] at h
          cases h
          rfl
      | directory => simp [he]
      | link target => simp [he]

end FileTree

namespace SourceFile

variable {t : FileTree} {cwd : Location} {path : Text}

theorem read_eq_ok {d : Document} (h : read t cwd path = .ok d) :
    ∃ content text encoding, t.readFile cwd path = .ok content ∧
      Encoding.decode content = .ok (text, encoding) ∧ d = Document.ofText text encoding := by
  unfold read at h
  split at h
  · cases h
  · rename_i content hc
    cases hd : Encoding.decode content with
    | error e =>
      simp only [Document.ofContent, hd, Except.map] at h
      cases h
    | ok p =>
      obtain ⟨text, encoding⟩ := p
      simp only [Document.ofContent, hd, Except.map] at h
      cases h
      exact ⟨content, text, encoding, hc, hd, rfl⟩

theorem write_eq_error {d : Document} {tag : Nat} {e : Error} {left : FileTree}
    (h : write t cwd path d tag = (.error e, left)) :
    ∃ e', e = .writing path e' ∧ t.replaceFile cwd path d.content tag = (.error e', left) := by
  unfold write at h
  split at h
  · rename_i e' left' hr
    cases h
    exact ⟨e', rfl, hr⟩
  · cases h

theorem write_ok {d : Document} {tag : Nat} {left : FileTree}
    (h : write t cwd path d tag = (.ok (), left)) :
    t.replaceFile cwd path d.content tag = (.ok (), left) := by
  unfold write at h
  split at h
  · cases h
  · rename_i left' hr
    cases h
    exact hr

end SourceFile

theorem FileAccess.PlainOrFails.read_eq_ok {cwd : Location} {files : FileAccess}
    (h : files.PlainOrFails cwd) {t : FileTree} {path : Text} {d : Document}
    (hread : files.read t path = .ok d) :
    ∃ content text encoding, t.readFile cwd path = .ok content ∧
      Encoding.decode content = .ok (text, encoding) ∧ d = Document.ofText text encoding := by
  rcases h.read t path with hplain | ⟨e, he⟩
  · exact SourceFile.read_eq_ok (hplain.symm.trans hread)
  · rw [he] at hread
    cases hread

/-! ### What converting a file does -/

namespace Conversion

/-- What converting a file does, by the result, by whether the file was handed over for writing,
and by the tree that is left. -/
inductive Handles (c : Converter) (package : Text) (t : FileTree) (path : Text) :
    Result → Bool → FileTree → Prop
  | unread (e : SourceFile.Error) (hread : c.files.read t path = .error e) :
      Handles c package t path ⟨path, .failed, [], some e⟩ false t
  | still (d : Document) (hread : c.files.read t path = .ok d)
      (hnone : Change.list package d.lines = []) :
      Handles c package t path ⟨path, .unchanged, [], none⟩ false t
  | reported (d : Document) (hread : c.files.read t path = .ok d)
      (hsome : Change.list package d.lines ≠ []) (hdry : c.dryRun = true) :
      Handles c package t path ⟨path, .updated, Change.list package d.lines, none⟩ false t
  | written (d : Document) (left : FileTree) (hread : c.files.read t path = .ok d)
      (hsome : Change.list package d.lines ≠ []) (hdry : c.dryRun = false)
      (hwrite : c.files.write t path (convertedDocument package d) = (.ok (), left)) :
      Handles c package t path ⟨path, .updated, Change.list package d.lines, none⟩ true left
  | refused (d : Document) (e : SourceFile.Error) (left : FileTree)
      (hread : c.files.read t path = .ok d) (hsome : Change.list package d.lines ≠ [])
      (hdry : c.dryRun = false)
      (hwrite : c.files.write t path (convertedDocument package d) = (.error e, left)) :
      Handles c package t path ⟨path, .failed, [], some e⟩ true left

theorem Handles.eq {c : Converter} {package path : Text} {t left : FileTree} {r : Result}
    {wrote : Bool} (h : Handles c package t path r wrote left) :
    (convertFile c package t path).result = r ∧ (convertFile c package t path).wrote = wrote ∧
      (convertFile c package t path).tree = left := by
  cases h with
  | unread e hread => simp [convertFile, hread]
  | still d hread hnone => simp [convertFile, hread, hnone]
  | reported d hread hsome hdry => simp [convertFile, hread, hsome, hdry]
  | written d left hread hsome hdry hwrite => simp [convertFile, hread, hsome, hdry, hwrite]
  | refused d e left hread hsome hdry hwrite => simp [convertFile, hread, hsome, hdry, hwrite]

theorem exists_handles (c : Converter) (package : Text) (t : FileTree) (path : Text) :
    ∃ r wrote left, Handles c package t path r wrote left := by
  cases hread : c.files.read t path with
  | error e => exact ⟨_, _, _, .unread e hread⟩
  | ok d =>
    by_cases hnone : Change.list package d.lines = []
    · exact ⟨_, _, _, .still d hread hnone⟩
    cases hdry : c.dryRun with
    | true => exact ⟨_, _, _, .reported d hread hnone hdry⟩
    | false =>
      obtain ⟨w, left, hwrite⟩ : ∃ w left,
          c.files.write t path (convertedDocument package d) = (w, left) := ⟨_, _, rfl⟩
      cases w with
      | error e => exact ⟨_, _, _, .refused d e left hread hnone hdry hwrite⟩
      | ok _ => exact ⟨_, _, _, .written d left hread hnone hdry hwrite⟩

/-- Converting a file does one of the things that `Handles` lists. -/
theorem convertFile_handles (c : Converter) (package : Text) (t : FileTree) (path : Text) :
    Handles c package t path (convertFile c package t path).result
      (convertFile c package t path).wrote (convertFile c package t path).tree := by
  obtain ⟨r, wrote, left, h⟩ := exists_handles c package t path
  obtain ⟨hresult, hwrote, htree⟩ := h.eq
  rw [hresult, hwrote, htree]
  exact h

theorem convertFile_path (c : Converter) (package : Text) (t : FileTree) (path : Text) :
    (convertFile c package t path).result.path = path := by
  obtain ⟨r, wrote, left, h⟩ := exists_handles c package t path
  rw [h.eq.1]
  cases h with
  | unread => rfl
  | still => rfl
  | reported => rfl
  | written => rfl
  | refused => rfl

/-! ### What becomes of the tree -/

/-- What converting one file can do, by the result it gives and the tree it leaves. -/
inductive Converts (c : Converter) (cwd : Location) (package : Text) (t : FileTree)
    (path : Text) : Result → FileTree → Prop
  | failed (e : SourceFile.Error) (left : FileTree) (same : ∀ l, left.get? l = t.get? l) :
      Converts c cwd package t path ⟨path, .failed, [], some e⟩ left
  | unchanged (content : Bytes) (text : Text) (encoding : Encoding)
      (hread : t.readFile cwd path = .ok content)
      (hdecode : Encoding.decode content = .ok (text, encoding))
      (hlines : ∀ p ∈ Document.cut text, absoluteLine package p.1 = p.1) :
      Converts c cwd package t path ⟨path, .unchanged, [], none⟩ t
  | reported (content : Bytes) (text : Text) (encoding : Encoding)
      (hdry : c.dryRun = true) (hread : t.readFile cwd path = .ok content)
      (hdecode : Encoding.decode content = .ok (text, encoding))
      (hlines : ∃ p ∈ Document.cut text, absoluteLine package p.1 ≠ p.1) :
      Converts c cwd package t path
        ⟨path, .updated, Change.list package ((Document.cut text).map Prod.fst), none⟩ t
  | updated (content : Bytes) (text : Text) (encoding : Encoding) (l : Location) (old : Entry)
      (mode : Nat) (left : FileTree)
      (hdry : c.dryRun = false) (hread : t.readFile cwd path = .ok content)
      (hdecode : Encoding.decode content = .ok (text, encoding))
      (hlines : ∃ p ∈ Document.cut text, absoluteLine package p.1 ≠ p.1)
      (hplace : t.place cwd path = .ok l) (hold : t.get? l = some old)
      (hmode : t.replacedMode cwd path = .ok mode)
      (hleft : ∀ m, left.get? m = if m = l then
        some (.file (Encoding.encode (absoluteText package text) encoding) mode)
        else t.get? m) :
      Converts c cwd package t path
        ⟨path, .updated, Change.list package ((Document.cut text).map Prod.fst), none⟩ left

theorem content_convertedDocument (package text : Text) (encoding : Encoding) :
    (convertedDocument package (Document.ofText text encoding)).content =
      Encoding.encode (absoluteText package text) encoding := by
  simp only [convertedDocument, Document.content, Document.text, Document.ofText, absoluteLines,
    Document.joined_map, absoluteText]

theorem list_ofText_eq_nil_iff (package text : Text) (encoding : Encoding) :
    Change.list package (Document.ofText text encoding).lines = [] ↔
      ∀ p ∈ Document.cut text, absoluteLine package p.1 = p.1 := by
  rw [Change.list_eq_nil_iff]
  simp [Document.ofText]

theorem Handles.converts {c : Converter} {cwd : Location} (h : c.files.PlainOrFails cwd)
    {package path : Text} {t left : FileTree} {r : Result} {wrote : Bool}
    (hhandles : Handles c package t path r wrote left) :
    Converts c cwd package t path r left := by
  have hlines : ∀ {text : Text} {encoding : Encoding},
      Change.list package (Document.ofText text encoding).lines ≠ [] →
      ∃ p ∈ Document.cut text, absoluteLine package p.1 ≠ p.1 := by
    intro text encoding hsome
    simpa using mt (list_ofText_eq_nil_iff package text encoding).mpr hsome
  cases hhandles with
  | unread e hread => exact .failed e t fun _ => rfl
  | still d hread hnone =>
    obtain ⟨content, text, encoding, hcontent, hdecode, rfl⟩ := h.read_eq_ok hread
    exact .unchanged content text encoding hcontent hdecode
      ((list_ofText_eq_nil_iff package text encoding).mp hnone)
  | reported d hread hsome hdry =>
    obtain ⟨content, text, encoding, hcontent, hdecode, rfl⟩ := h.read_eq_ok hread
    exact .reported content text encoding hdry hcontent hdecode (hlines hsome)
  | written d left hread hsome hdry hwrite =>
    obtain ⟨content, text, encoding, hcontent, hdecode, rfl⟩ := h.read_eq_ok hread
    obtain ⟨tag, hplain⟩ : ∃ tag, SourceFile.write t cwd path
        (convertedDocument package (Document.ofText text encoding)) tag = (.ok (), left) := by
      rcases h.write t path (convertedDocument package (Document.ofText text encoding)) with
        ⟨tag, hw⟩ | ⟨e, left', hw, -⟩
      · exact ⟨tag, by rw [← hw, hwrite]⟩
      · rw [hw] at hwrite
        cases hwrite
    obtain ⟨x, m, hx, hfile⟩ := FileTree.readFile_eq_ok.mp hcontent
    obtain ⟨l, old, hplace, hold, -⟩ := FileTree.place_of_locate hx hfile
    obtain ⟨mode, hmode, -, hleft⟩ :=
      FileTree.replaceFile_ok hplace hold (SourceFile.write_ok hplain)
    rw [content_convertedDocument] at hleft
    exact .updated content text encoding l old mode left hdry hcontent hdecode (hlines hsome)
      hplace hold hmode hleft
  | refused d e left hread hsome hdry hwrite =>
    -- the store fails, or it makes the plain replacement, which fails
    refine .failed e left fun l => ?_
    rcases h.write t path (convertedDocument package d) with ⟨tag, hw⟩ | ⟨e', left', hw, hsame⟩
    · obtain ⟨e', -, hreplace⟩ := SourceFile.write_eq_error (hw.symm.trans hwrite)
      exact FileTree.replaceFile_error hreplace l
    · rw [hw] at hwrite
      cases hwrite
      exact hsame l

theorem convertFile_converts {c : Converter} {cwd : Location} (h : c.files.PlainOrFails cwd)
    (package : Text) (t : FileTree) (path : Text) :
    Converts c cwd package t path (convertFile c package t path).result
      (convertFile c package t path).tree :=
  (convertFile_handles c package t path).converts h

end Conversion

end AbsoluteImports
