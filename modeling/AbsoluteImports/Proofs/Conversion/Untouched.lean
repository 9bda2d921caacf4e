import AbsoluteImports.Proofs.Conversion.FileStep
import AbsoluteImports.Proofs.Document
import AbsoluteImports.Proofs.Encoding.Segments

/-!
# Lines that are not changed

A file is written back as a whole when one of its lines changes. `convertFile_segments` says what
that does to the other lines, segment by segment: their number stays, and a segment without a
change is stored byte for byte as it was exactly when it was well formed. In UTF-8 every segment
is, since other content is not read at all; in UTF-16 content is read whatever it is.
-/

namespace AbsoluteImports.Conversion

/-- Of a file that was updated, the segments without a change are kept if and only if they were
well formed, and there are as many as before. -/
theorem convertFile_segments (c : Converter) (cwd : Location) (package : Text)
    (hfiles : c.files.PlainOrFails cwd) (hdry : c.dryRun = false) (hpackage : '\n' ∉ package)
    (t : FileTree) (path : Text)
    (hupdated : (convertFile c package t path).result.outcome = .updated) :
    ∃ l old new mode, t.readFile cwd path = .ok old ∧ t.place cwd path = .ok l ∧
      (convertFile c package t path).tree.get? l = some (.file new mode) ∧
      ((Encoding.detect old).segments old).length = ((Encoding.detect old).segments new).length ∧
      ∀ i : Nat, i ∉ (convertFile c package t path).result.changes.map Change.index →
        (((Encoding.detect old).segments old)[i]? = ((Encoding.detect old).segments new)[i]? ↔
          ∀ s ∈ ((Encoding.detect old).segments old)[i]?, (Encoding.detect old).WellFormed s) ∧
        ((∀ o, Encoding.detect old ≠ .utf16 o) →
          ((Encoding.detect old).segments old)[i]? = ((Encoding.detect old).segments new)[i]?) := by
  have hconverts := convertFile_converts hfiles package t path
  generalize (convertFile c package t path).result = r at hconverts hupdated
  generalize (convertFile c package t path).tree = left at hconverts
  cases hconverts with
  | failed e left same => cases hupdated
  | unchanged content text encoding hread hdecode hlines => cases hupdated
  | reported content text encoding hreport =>
    rw [hdry] at hreport
    cases hreport
  | updated content text encoding l old mode left hreal hread hdecode hlines hplace hold hmode
      hleft =>
    obtain ⟨rfl, -⟩ := Encoding.decode_eq_ok hdecode
    have hlen : (cutAfter (· == '\n') text).length =
        (cutAfter (· == '\n') (absoluteText package text)).length := by
      rw [Document.cutAfter_text, Document.cutAfter_absoluteText hpackage, List.length_map,
        List.length_map]
    obtain ⟨hlength, hkept⟩ := Encoding.segments_kept_iff hdecode hlen
    refine ⟨l, content, _, mode, hread, hplace, by rw [hleft, if_pos rfl], hlength, fun i hi => ?_⟩
    have hiff := hkept i (Document.getElem?_cutAfter_absoluteText hpackage text hi).symm
    refine ⟨hiff, fun hutf8 => hiff.mpr fun s hs => ?_⟩
    exact Encoding.wellFormed_segments hdecode hutf8 s (List.mem_of_getElem? hs)

/-- A file in UTF-16 with a surrogate alone on its first line, an import, and a pair of
surrogates. -/
def surrogateFile : Bytes :=
  [0xFF, 0xFE, 0x3D, 0xD8, 0x0A, 0x00] ++ Utf16.encode .little "from .a import b\n".toList ++
    [0x3D, 0xD8, 0x00, 0xDE]

def surrogateTree : FileTree where
  entries := [(["m.py".toList], .file surrogateFile 0o644)]
  nodup := by decide

def surrogateConverter : Converter := ⟨.plain [], 1, [], false⟩

theorem convertFile_segments_surrogateTree :
    ∃ l old new mode, surrogateTree.readFile [] "m.py".toList = .ok old ∧
      surrogateTree.place [] "m.py".toList = .ok l ∧
      (convertFile surrogateConverter ['p'] surrogateTree "m.py".toList).tree.get? l =
        some (.file new mode) ∧
      ((Encoding.detect old).segments old)[2]? = ((Encoding.detect old).segments new)[2]? := by
  obtain ⟨l, old, new, mode, hread, hplace, hnew, -, hkept⟩ :=
    convertFile_segments surrogateConverter [] ['p'] (FileAccess.plainOrFails_plain [])
      rfl (by decide) surrogateTree "m.py".toList (by decide)
  have hold : surrogateTree.readFile [] "m.py".toList = .ok surrogateFile := rfl
  rw [hold] at hread
  cases hread
  refine ⟨l, surrogateFile, new, mode, hold, hplace, hnew, (hkept 2 (by decide)).1.mpr ?_⟩
  have hpair : (Encoding.segments (.utf16 .little) surrogateFile)[2]? =
      some [0x3D, 0xD8, 0x00, 0xDE] := by decide
  rintro s hs
  cases hpair.symm.trans hs
  exact ⟨by decide, .pair (by decide) (by decide) .nil⟩

/-- The line before the import has no change, and its bytes are not the same afterwards. -/
theorem convertFile_segment_lost :
    (convertFile surrogateConverter ['p'] surrogateTree "m.py".toList).result.outcome =
      .updated ∧
    (convertFile surrogateConverter ['p'] surrogateTree "m.py".toList).result.changes.map
      Change.index = [1] ∧
    ∃ new, (convertFile surrogateConverter ['p'] surrogateTree "m.py".toList).tree.get?
        ["m.py".toList] = some (.file new 0o644) ∧
      ((Encoding.detect surrogateFile).segments surrogateFile)[0]? =
        some [0xFF, 0xFE, 0x3D, 0xD8, 0x0A, 0x00] ∧
      ((Encoding.detect surrogateFile).segments new)[0]? =
        some [0xFF, 0xFE, 0xFD, 0xFF, 0x0A, 0x00] := by
  refine ⟨by decide, by decide, [0xFF, 0xFE, 0xFD, 0xFF, 0x0A, 0x00] ++
    Utf16.encode .little "from p.a import b\n".toList ++ [0x3D, 0xD8, 0x00, 0xDE], ?_⟩
  decide

end AbsoluteImports.Conversion
