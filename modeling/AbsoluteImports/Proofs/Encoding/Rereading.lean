import AbsoluteImports.Proofs.Document
import AbsoluteImports.Proofs.Encoding.Segments

/-!
# Reading what was written

Content that was written is read as the text that was stored, in the encoding that was used. The
one text that is not is a text in plain UTF-8 that begins with the character of the mark. A
document whose imports were made absolute never has such a text, and its lines are cut where
they were cut before, so that the next reader finds the document that was written.
-/

namespace AbsoluteImports.Encoding

/-- The character that the mark is made of. -/
def markChar : Char := Char.ofNat 0xFEFF

theorem head?_of_decode?_mark {r : Bytes} {text : Text}
    (h : Utf8.decode? (0xEF :: 0xBB :: 0xBF :: r) = some text) : text.head? = some markChar := by
  have hbytes : Utf8.encodeChar markChar = [0xEF, 0xBB, 0xBF] := by decide
  obtain ⟨a, r', k, heq, hnext, -⟩ := Utf8.next?_encodeChar markChar r
  rw [hbytes, List.cons_append, List.cons_append, List.singleton_append] at heq
  cases heq
  rw [Utf8.decode?, hnext] at h
  obtain ⟨rest, -, rfl⟩ := Option.map_eq_some_iff.mp h
  rfl

theorem decode?_of_utf16_mark (o : Utf16.Order) (r : Bytes) :
    Utf8.decode? ((utf16 o).mark ++ r) = none := by
  have hnext : Utf8.next? ((utf16 o).mark ++ r) = none := by cases o <;> rfl
  cases o with
  | little =>
    simp only [mark, List.cons_append] at hnext ⊢
    rw [Utf8.decode?, hnext]
  | big =>
    simp only [mark, List.cons_append] at hnext ⊢
    rw [Utf8.decode?, hnext]

theorem detect_utf8 {bs : Bytes} {text : Text} (h : Utf8.decode? bs = some text)
    (hhead : text.head? ≠ some markChar) : detect bs = utf8 := by
  unfold detect
  split
  · exact absurd (head?_of_decode?_mark h) hhead
  · rename_i r
    have hnone := decode?_of_utf16_mark .little r
    rw [mark, List.cons_append, List.cons_append, List.nil_append, h] at hnone
    cases hnone
  · rename_i r
    have hnone := decode?_of_utf16_mark .big r
    rw [mark, List.cons_append, List.cons_append, List.nil_append, h] at hnone
    cases hnone
  · rfl

theorem detect_encode {text : Text} {e : Encoding} (h : e = utf8 → text.head? ≠ some markChar) :
    detect (encode text e) = e := by
  cases e with
  | utf8 => exact detect_utf8 (Utf8.decode?_encode text) (h rfl)
  | utf8Mark => rfl
  | utf16 o => cases o <;> rfl

theorem decode_encode {text : Text} {e : Encoding} (h : e = utf8 → text.head? ≠ some markChar) :
    decode (encode text e) = .ok (text, e) := by
  have hread : decodeAs? e (encode text e) = some text := by
    cases e with
    | utf8 => exact Utf8.decode?_encode text
    | utf8Mark => exact Utf8.decode?_encode text
    | utf16 o =>
      have hbody : (encode text (utf16 o)).drop (utf16 o).mark.length = Utf16.encode o text := by
        simp [encode]
      simp only [decodeAs?, hbody, Utf16.decode_encode]
  simp only [decode, detect_encode h, hread]

theorem head?_of_decode {content : Bytes} {text : Text} (h : decode content = .ok (text, utf8)) :
    text.head? ≠ some markChar := by
  intro hhead
  obtain ⟨rest, rfl⟩ : ∃ rest, text = markChar :: rest := by
    cases text with
    | nil => cases hhead
    | cons c rest => exact ⟨rest, by rw [List.head?_cons] at hhead; cases hhead; rfl⟩
  have hcontent : content = [0xEF, 0xBB, 0xBF] ++ Utf8.encode rest :=
    eq_body_of_decode h (by simp)
  have hdetect : utf8 = detect content := (decode_eq_ok h).1
  rw [hcontent] at hdetect
  cases hdetect

theorem decode_encode_of_decode {content : Bytes} {text text' : Text} {e : Encoding}
    (h : decode content = .ok (text, e)) (hhead : text'.head? = text.head?) :
    decode (encode text' e) = .ok (text', e) := by
  refine decode_encode ?_
  rintro rfl
  rw [hhead]
  exact head?_of_decode h

end AbsoluteImports.Encoding

namespace AbsoluteImports.Document

/-! ### Documents -/

theorem text_withLines (package text : Text) (e : Encoding) :
    Document.text { ofText text e with lines := absoluteLines package (ofText text e).lines } =
      absoluteText package text := by
  simp only [Document.text, ofText, absoluteLines, joined_map, absoluteText]

/-- Only the last line of a text can be without a terminator. -/
theorem Cut.terminated {parts : List (Text × Text)} (h : Cut parts) :
    ∀ ending ∈ (parts.map Prod.snd).dropLast, ending = ['\n'] ∨ ending = ['\r', '\n'] := by
  induction h with
  | nil => simp
  | last line hne hline => simp
  | @cons line ending rest hline hending hreturn _ ih =>
    intro x hx
    cases rest with
    | nil => simp at hx
    | cons p rest =>
      rw [List.map_cons, List.map_cons, List.dropLast_cons_cons, List.mem_cons] at hx
      rcases hx with rfl | hx
      · exact hending
      · exact ih x hx

/-- A document with its imports made absolute is read again as it was written: the lines in their
order, each with the terminator that it had, in the encoding and with the mark of before. -/
theorem ofContent_withLines {data : Bytes} {text : Text} {e : Encoding} (package : Text)
    (hdecode : Encoding.decode data = .ok (text, e)) (hfeed : '\n' ∉ package) :
    ∃ d, (ofText text e).withLines (absoluteLines package (ofText text e).lines) = .ok d ∧
      ofContent d.content = .ok d ∧
      d.lines = (ofText text e).lines.map (absoluteLine package) ∧
      d.endings = (ofText text e).endings ∧ d.endings.length = d.lines.length ∧
      (∀ ending ∈ d.endings.dropLast, ending = ['\n'] ∨ ending = ['\r', '\n']) ∧
      d.encoding = e ∧ Encoding.detect d.content = Encoding.detect data ∧
      e.mark <+: data ∧ e.mark <+: d.content := by
  have hlength : (absoluteLines package (ofText text e).lines).length =
      (ofText text e).lines.length := by
    rw [absoluteLines, List.length_map]
  -- the new text begins as the old one, so no mark appears that was not there
  have hread : Encoding.decode (Encoding.encode (absoluteText package text) e) =
      .ok (absoluteText package text, e) :=
    Encoding.decode_encode_of_decode hdecode (head?_absoluteText package text)
  obtain ⟨hdetect, -⟩ := Encoding.decode_eq_ok hdecode
  obtain ⟨hagain, -⟩ := Encoding.decode_eq_ok hread
  have hcontent : Document.content
      { ofText text e with lines := absoluteLines package (ofText text e).lines } =
        Encoding.encode (absoluteText package text) e := by
    rw [content, text_withLines]
    rfl
  refine ⟨{ ofText text e with lines := absoluteLines package (ofText text e).lines },
    if_pos hlength, ?_, rfl, rfl, ?_, (cut_cut text).terminated, rfl, ?_, ?_, ?_⟩
  · rw [ofContent, hcontent, hread]
    show Except.ok (ofText (absoluteText package text) e) = _
    simp only [ofText, absoluteLines, cut_absoluteText hfeed, List.map_map]
    rfl
  · simp only [ofText, absoluteLines, List.length_map]
  · rw [hcontent, ← hagain, hdetect]
  · rw [hdetect]
    exact ⟨_, Encoding.mark_append_drop data⟩
  · rw [hcontent]
    exact ⟨_, rfl⟩

end AbsoluteImports.Document
