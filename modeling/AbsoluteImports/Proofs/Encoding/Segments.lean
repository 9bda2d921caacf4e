import AbsoluteImports.Encoding
import AbsoluteImports.Proofs.Text.Cutting
import AbsoluteImports.Proofs.Text.Utf16

/-!
# Segments of stored content

Content is cut into segments after each line feed of its encoding, with no regard to what the
rest means. `segments_encode` and `segments_decode` relate the segments to the pieces of the text
that is written or read, so that each segment can be looked at by itself: it is stored again as
it was exactly when it is well formed.
-/

namespace AbsoluteImports.Encoding

/-! ### Segments -/

/-- Bytes two by two, where a last odd byte stands alone. -/
def pairs : Bytes → List Bytes
  | [] => []
  | [a] => [[a]]
  | a :: b :: r => [a, b] :: pairs r

/-- The code units of content. -/
def codeUnits (e : Encoding) (content : Bytes) : List Bytes :=
  match e with
  | utf8 | utf8Mark => content.map fun b => [b]
  | utf16 _ => pairs content

def lineFeed : Encoding → Bytes
  | utf8 | utf8Mark => [0x0A]
  | utf16 .little => [0x0A, 0x00]
  | utf16 .big => [0x00, 0x0A]

theorem lineFeed_utf16 (o : Utf16.Order) : (utf16 o).lineFeed = Utf16.unitBytes o 0x0A := by
  cases o <;> decide

/-- Content cut after each line feed; a mark belongs to the first segment. -/
def segments (e : Encoding) (content : Bytes) : List Bytes :=
  (cutAfter (· == e.lineFeed) (e.codeUnits content)).map List.flatten

theorem flatten_pairs (bs : Bytes) : (pairs bs).flatten = bs := by
  fun_induction pairs bs with
  | case1 => rfl
  | case2 a => rfl
  | case3 a b r ih => rw [List.flatten_cons, ih]; rfl

theorem flatten_codeUnits (e : Encoding) (content : Bytes) :
    (codeUnits e content).flatten = content := by
  have h8 : (content.map fun b => [b]).flatten = content := by
    rw [← List.flatMap_def, List.flatMap_singleton']
  cases e with
  | utf8 => exact h8
  | utf8Mark => exact h8
  | utf16 o => exact flatten_pairs content

/-- Bytes that hold a text in an encoding and nothing else. -/
def WellFormed (e : Encoding) (bs : Bytes) : Prop :=
  match e with
  | utf8 | utf8Mark => (Utf8.decode? bs).isSome = true
  | utf16 o => Utf16.Sound o bs

def body (e : Encoding) (text : Text) : Bytes :=
  match e with
  | utf8 | utf8Mark => Utf8.encode text
  | utf16 o => Utf16.encode o text

def markText : Encoding → Text
  | utf8 => []
  | _ => [Char.ofNat 0xFEFF]

theorem body_append (e : Encoding) (s t : Text) : body e (s ++ t) = body e s ++ body e t := by
  cases e with
  | utf8 => simp [body, Utf8.encode]
  | utf8Mark => simp [body, Utf8.encode]
  | utf16 o => simp [body, Utf16.encode, Utf16.encodeUnits]

theorem body_markText (e : Encoding) : body e (markText e) = e.mark := by
  rcases e with _ | _ | o
  · decide
  · decide
  · cases o <;> decide

theorem encode_eq_body (text : Text) (e : Encoding) :
    encode text e = body e (markText e ++ text) := by
  rw [body_append, body_markText]
  cases e with
  | utf8 => rfl
  | utf8Mark => rfl
  | utf16 o => rfl

/-! ### Writing -/

def charUnits (e : Encoding) (c : Char) : List Bytes :=
  match e with
  | utf8 | utf8Mark => (Utf8.encodeChar c).map fun b => [b]
  | utf16 o => (Utf16.encodeChar c).map (Utf16.unitBytes o)

theorem pairs_flatMap (o : Utf16.Order) (us : List UInt16) :
    pairs (us.flatMap (Utf16.unitBytes o)) = us.map (Utf16.unitBytes o) := by
  induction us with
  | nil => rfl
  | cons u us ih =>
    obtain ⟨a, b, hbytes, -⟩ := Utf16.unitBytes_eq o u
    rw [List.flatMap_cons, List.map_cons, hbytes, List.cons_append, List.cons_append,
      List.nil_append, pairs, ih]

theorem codeUnits_body (e : Encoding) (text : Text) :
    codeUnits e (body e text) = text.flatMap (charUnits e) := by
  cases e with
  | utf8 =>
    simp only [codeUnits, body, Utf8.encode, List.map_flatMap]
    rfl
  | utf8Mark =>
    simp only [codeUnits, body, Utf8.encode, List.map_flatMap]
    rfl
  | utf16 o =>
    simp only [codeUnits, body, Utf16.encode, Utf16.encodeUnits, pairs_flatMap, List.map_flatMap]
    rfl

theorem flatten_flatMap_charUnits (e : Encoding) (text : Text) :
    (text.flatMap (charUnits e)).flatten = body e text := by
  rw [← codeUnits_body, flatten_codeUnits]

theorem charUnits_lineFeed (e : Encoding) : charUnits e '\n' = [e.lineFeed] := by
  rcases e with _ | _ | o
  · decide
  · decide
  · cases o <;> decide

theorem charUnits_ne_nil (e : Encoding) (c : Char) : charUnits e c ≠ [] := by
  have h16 : Utf16.encodeChar c ≠ [] := by
    simp only [Utf16.encodeChar]
    split
    · exact List.cons_ne_nil _ _
    · exact List.cons_ne_nil _ _
  cases e with
  | utf8 => simp [charUnits, Utf8.encodeChar_ne_nil c]
  | utf8Mark => simp [charUnits, Utf8.encodeChar_ne_nil c]
  | utf16 o => simp [charUnits, h16]

theorem eq_lineFeed_of_mem_charUnits {e : Encoding} {c : Char} (h : e.lineFeed ∈ charUnits e c) :
    c = '\n' := by
  have h8 : [0x0A] ∈ (Utf8.encodeChar c).map (fun b => [b]) → c = '\n' := by
    intro hmem
    obtain ⟨b, hb, he⟩ := List.mem_map.mp hmem
    cases he
    exact Utf8.eq_lineFeed_of_mem hb
  cases e with
  | utf8 => exact h8 h
  | utf8Mark => exact h8 h
  | utf16 o =>
    rw [lineFeed_utf16] at h
    obtain ⟨u, hu, he⟩ := List.mem_map.mp h
    rw [Utf16.unitBytes_injective he] at hu
    exact Utf16.eq_lineFeed_of_mem hu

/-- The segments of a stored text are its pieces, each stored by itself. -/
theorem segments_body (e : Encoding) (text : Text) :
    segments e (body e text) = (cutAfter (· == '\n') text).map (body e) := by
  have hcut : IsCut (· == e.lineFeed)
      ((cutAfter (· == '\n') text).map (List.flatMap (charUnits e))) := by
    refine (isCut_cutAfter (· == '\n') text).map ?_ ?_
    · intro s hs
      refine ⟨?_, ?_⟩
      · intro hne
        obtain ⟨c, r, rfl⟩ := List.exists_cons_of_ne_nil hne
        simp [charUnits_ne_nil e c]
      · intro y hy
        obtain ⟨c, hc, hyc⟩ := List.mem_flatMap.mp hy
        refine beq_eq_false_iff_ne.mpr ?_
        rintro rfl
        exact absurd (eq_lineFeed_of_mem_charUnits hyc) (beq_eq_false_iff_ne.mp (hs c hc))
    · intro s c _ hc
      refine ⟨e.lineFeed, ?_, beq_self_eq_true _⟩
      rw [beq_iff_eq.mp hc, List.flatMap_append, List.flatMap_singleton, charUnits_lineFeed]
  have hpieces := hcut.cutAfter_flatten
  rw [← List.flatMap_def, ← List.flatMap_assoc, List.flatMap_id', flatten_cutAfter,
    ← codeUnits_body] at hpieces
  rw [segments, hpieces, List.map_map]
  refine List.map_congr_left fun s _ => ?_
  exact flatten_flatMap_charUnits e s

/-! ### Reading -/

/-- Code units as `pairs` gives them. -/
inductive Paired : List Bytes → Prop
  | nil : Paired []
  | last (a : UInt8) : Paired [[a]]
  | cons (a b : UInt8) {us : List Bytes} (rest : Paired us) : Paired ([a, b] :: us)

theorem paired_pairs (bs : Bytes) : Paired (pairs bs) := by
  fun_induction pairs bs with
  | case1 => exact .nil
  | case2 a => exact .last a
  | case3 a b r ih => exact .cons a b ih

theorem Paired.pairs_flatten {us : List Bytes} (h : Paired us) : pairs us.flatten = us := by
  induction h with
  | nil => rfl
  | last a => rfl
  | cons a b _ ih =>
    rw [List.flatten_cons, List.cons_append, List.cons_append, List.nil_append, pairs, ih]

theorem Paired.of_append {us vs : List Bytes} (h : Paired (us ++ vs)) : Paired us ∧ Paired vs := by
  induction us with
  | nil => exact ⟨.nil, h⟩
  | cons u us ih =>
    rw [List.cons_append] at h
    generalize hws : us ++ vs = ws at h
    cases h with
    | last a =>
      obtain ⟨rfl, rfl⟩ := List.append_eq_nil_iff.mp hws
      exact ⟨.last a, .nil⟩
    | cons a b rest =>
      obtain ⟨hus, hvs⟩ := ih (hws ▸ rest)
      exact ⟨.cons a b hus, hvs⟩

theorem Paired.of_mem {pieces : List (List Bytes)} (h : Paired pieces.flatten) {s : List Bytes}
    (hs : s ∈ pieces) : Paired s := by
  induction pieces with
  | nil => cases hs
  | cons t ts ih =>
    rw [List.flatten_cons] at h
    rcases List.mem_cons.mp hs with rfl | hs
    · exact h.of_append.1
    · exact ih h.of_append.2 hs

/-- The unit that a code unit is read as. A single byte is read as a surrogate without a
partner: both give a replacement character. -/
def unit (o : Utf16.Order) : Bytes → UInt16
  | [a, b] => Utf16.unitOf o a b
  | _ => 0xD800

theorem map_unit_pairs (o : Utf16.Order) (bs : Bytes) :
    (pairs bs).map (unit o) =
      (Utf16.units o bs).1 ++ if (Utf16.units o bs).2 then [0xD800] else [] := by
  fun_induction pairs bs with
  | case1 => rfl
  | case2 a => rfl
  | case3 a b r ih =>
    rw [List.map_cons, ih]
    rfl

theorem decode_eq_decodeUnits (o : Utf16.Order) (bs : Bytes) :
    Utf16.decode o bs = Utf16.decodeUnits ((pairs bs).map (unit o)) := by
  rw [map_unit_pairs]
  simp only [Utf16.decode]
  split
  · rw [Utf16.decodeUnits_append (by decide)]
    rfl
  · rw [List.append_nil, List.append_nil]

theorem unit_eq_lineFeed_iff {o : Utf16.Order} {bs : Bytes} :
    unit o bs = 0x0A ↔ bs = (utf16 o).lineFeed := by
  constructor
  · intro h
    unfold unit at h
    split at h
    · rename_i a b
      rw [lineFeed_utf16, ← h, Utf16.unitBytes_unitOf]
    · exact absurd h (by decide)
  · rintro rfl
    cases o <;> decide

theorem flatten_map_decodeUnits {o : Utf16.Order} {pieces : List (List Bytes)}
    (h : IsCut (· == (utf16 o).lineFeed) pieces) :
    (pieces.map fun s => Utf16.decodeUnits (s.map (unit o))).flatten =
      Utf16.decodeUnits (pieces.flatten.map (unit o)) := by
  induction h with
  | nil => rfl
  | last s _ _ => simp
  | cons s a _ ha _ ih =>
    have hunit : unit o a = 0x0A := unit_eq_lineFeed_iff.mpr (beq_iff_eq.mp ha)
    rw [List.map_cons, List.flatten_cons, ih, List.flatten_cons, List.append_assoc,
      List.singleton_append, List.map_append, List.map_append, List.map_cons, List.map_cons, hunit,
      Utf16.decodeUnits_append_lineFeed, Utf16.decodeUnits_append_lineFeed]
    simp [Utf16.decodeUnits]

theorem cutAfter_decode (o : Utf16.Order) (content : Bytes) :
    cutAfter (· == '\n') (Utf16.decode o content) =
      (segments (utf16 o) content).map (Utf16.decode o) := by
  have hpieces := isCut_cutAfter (· == (utf16 o).lineFeed) (pairs content)
  have hcut : IsCut (· == '\n') ((cutAfter (· == (utf16 o).lineFeed) (pairs content)).map
      fun s => Utf16.decodeUnits (s.map (unit o))) := by
    refine hpieces.map ?_ ?_
    · intro s hs
      refine ⟨fun hne => Utf16.decodeUnits_ne_nil (by simpa using hne), ?_⟩
      intro c hc
      refine beq_eq_false_iff_ne.mpr ?_
      rintro rfl
      obtain ⟨x, hx, hunit⟩ := List.mem_map.mp (Utf16.lineFeed_of_mem_decodeUnits hc)
      exact absurd (unit_eq_lineFeed_iff.mp hunit) (beq_eq_false_iff_ne.mp (hs x hx))
    · intro s a _ ha
      have hunit : unit o a = 0x0A := unit_eq_lineFeed_iff.mpr (beq_iff_eq.mp ha)
      refine ⟨'\n', ?_, by decide⟩
      rw [List.map_append, List.map_cons, List.map_nil, hunit, Utf16.decodeUnits_append_lineFeed]
      rfl
  have hflat := hcut.cutAfter_flatten
  rw [flatten_map_decodeUnits hpieces, flatten_cutAfter, ← decode_eq_decodeUnits] at hflat
  rw [hflat, segments, List.map_map]
  refine List.map_congr_left fun s hs => ?_
  have hpaired : Paired (cutAfter (· == (utf16 o).lineFeed) (pairs content)).flatten := by
    rw [flatten_cutAfter]
    exact paired_pairs content
  simp only [Function.comp_apply, decode_eq_decodeUnits, (hpaired.of_mem hs).pairs_flatten]

/-! ### Reading and writing back -/

theorem mark_append_drop (content : Bytes) :
    (detect content).mark ++ content.drop (detect content).mark.length = content := by
  unfold detect
  split
  · rfl
  · rfl
  · rfl
  · rfl

theorem decode_eq_ok {content : Bytes} {text : Text} {e : Encoding}
    (h : decode content = .ok (text, e)) :
    e = detect content ∧ decodeAs? e content = some text := by
  simp only [decode] at h
  cases hd : decodeAs? (detect content) content with
  | none =>
    rw [hd] at h
    cases h
  | some text' =>
    rw [hd] at h
    cases h
    exact ⟨rfl, hd⟩

theorem wellFormed_body (e : Encoding) (text : Text) : e.WellFormed (body e text) := by
  have h8 : (Utf8.decode? (Utf8.encode text)).isSome = true := by
    rw [Utf8.decode?_encode]
    rfl
  cases e with
  | utf8 => exact h8
  | utf8Mark => exact h8
  | utf16 o =>
    simp only [WellFormed, body, Utf16.Sound, Utf16.encode, Utf16.units_flatMap, true_and]
    exact Utf16.wellFormed_encodeUnits text

/-- Segments that belong to pieces of a text one by one, where a segment is what its piece is
written as exactly when it is well formed. -/
def Matches (e : Encoding) (segments : List Bytes) (pieces : List Text) : Prop :=
  segments.length = pieces.length ∧
    ∀ i : Nat, ∀ s line, segments[i]? = some s → pieces[i]? = some line →
      (s = body e line ↔ e.WellFormed s)

theorem matches_body (e : Encoding) (text : Text) :
    Matches e (segments e (body e text)) (cutAfter (· == '\n') text) := by
  rw [segments_body]
  refine ⟨List.length_map _, fun i s line hs hline => ?_⟩
  rw [List.getElem?_map, hline, Option.map_some, Option.some.injEq] at hs
  rw [← hs]
  exact iff_of_true rfl (wellFormed_body e line)

theorem matches_decode (o : Utf16.Order) (content : Bytes) :
    Matches (utf16 o) (segments (utf16 o) content)
      (cutAfter (· == '\n') (Utf16.decode o content)) := by
  rw [cutAfter_decode]
  refine ⟨(List.length_map _).symm, fun i s line hs hline => ?_⟩
  rw [List.getElem?_map, hs, Option.map_some, Option.some.injEq] at hline
  rw [← hline]
  exact eq_comm.trans (Utf16.encode_decode_iff o s)

theorem decode_mark (o : Utf16.Order) (bs : Bytes) :
    Utf16.decode o ((utf16 o).mark ++ bs) = markText (utf16 o) ++ Utf16.decode o bs := by
  have hmark : pairs ((utf16 o).mark ++ bs) = (utf16 o).mark :: pairs bs := by cases o <;> rfl
  have hunit : unit o (utf16 o).mark = 0xFEFF := by cases o <;> decide
  rw [decode_eq_decodeUnits, hmark, List.map_cons, hunit, Utf16.decodeUnits_single (by decide),
    ← decode_eq_decodeUnits]
  rfl

theorem eq_body_of_decode {content : Bytes} {text : Text} {e : Encoding}
    (h : decode content = .ok (text, e)) (he : ∀ o, e ≠ utf16 o) :
    content = body e (markText e ++ text) := by
  obtain ⟨hdetect, hread⟩ := decode_eq_ok h
  have hmark := mark_append_drop content
  rw [← hdetect] at hmark
  have hbody : body e text = content.drop e.mark.length := by
    cases e with
    | utf8 => exact Utf8.encode_of_decode? hread
    | utf8Mark => exact Utf8.encode_of_decode? hread
    | utf16 o => exact absurd rfl (he o)
  rw [body_append, body_markText, hbody, hmark]

theorem segments_decode {content : Bytes} {text : Text} {e : Encoding}
    (h : decode content = .ok (text, e)) :
    Matches e (segments e content) (cutAfter (· == '\n') (markText e ++ text)) := by
  cases e with
  | utf8 =>
    rw [eq_body_of_decode h (by simp)]
    exact matches_body utf8 _
  | utf8Mark =>
    rw [eq_body_of_decode h (by simp)]
    exact matches_body utf8Mark _
  | utf16 o =>
    obtain ⟨hdetect, hread⟩ := decode_eq_ok h
    have hmark := mark_append_drop content
    rw [← hdetect] at hmark
    simp only [decodeAs?, Option.some.injEq] at hread
    rw [← hread, ← decode_mark, hmark]
    exact matches_decode o content

theorem wellFormed_segments {content : Bytes} {text : Text} {e : Encoding}
    (h : decode content = .ok (text, e)) (he : ∀ o, e ≠ utf16 o) :
    ∀ s ∈ segments e content, e.WellFormed s := by
  intro s hs
  rw [eq_body_of_decode h he, segments_body] at hs
  obtain ⟨line, -, rfl⟩ := List.mem_map.mp hs
  exact wellFormed_body e line

/-- A text is written back where another was read. Where a piece is the same in both, the segment
is kept exactly when it was well formed. -/
theorem segments_kept_iff {content : Bytes} {text text' : Text} {e : Encoding}
    (h : decode content = .ok (text, e))
    (hlen : (cutAfter (· == '\n') text).length = (cutAfter (· == '\n') text').length) :
    (segments e content).length = (segments e (encode text' e)).length ∧
    ∀ i : Nat, (cutAfter (· == '\n') text)[i]? = (cutAfter (· == '\n') text')[i]? →
      ((segments e content)[i]? = (segments e (encode text' e))[i]? ↔
        ∀ s ∈ (segments e content)[i]?, e.WellFormed s) := by
  obtain ⟨hlength, hpiece⟩ := segments_decode h
  have hmarked : (cutAfter (· == '\n') (markText e ++ text)).length =
        (cutAfter (· == '\n') (markText e ++ text')).length ∧
      ∀ i : Nat, (cutAfter (· == '\n') text)[i]? = (cutAfter (· == '\n') text')[i]? →
        (cutAfter (· == '\n') (markText e ++ text))[i]? =
          (cutAfter (· == '\n') (markText e ++ text'))[i]? := by
    cases e with
    | utf8 => exact ⟨hlen, fun _ hi => hi⟩
    | utf8Mark => exact cutAfter_cons_congr (by decide) hlen
    | utf16 o => exact cutAfter_cons_congr (by decide) hlen
  rw [encode_eq_body, segments_body, List.length_map]
  refine ⟨hlength.trans hmarked.1, fun i hi => ?_⟩
  rw [List.getElem?_map, ← hmarked.2 i hi]
  cases hs : (segments e content)[i]? with
  | none =>
    have hnone : (cutAfter (· == '\n') (markText e ++ text))[i]? = none := by
      rw [List.getElem?_eq_none_iff] at hs ⊢
      omega
    simp [hnone]
  | some s =>
    cases hline : (cutAfter (· == '\n') (markText e ++ text))[i]? with
    | none =>
      rw [List.getElem?_eq_none_iff, ← hlength] at hline
      have hlt := (List.getElem?_eq_some_iff.mp hs).1
      omega
    | some line =>
      have hiff := hpiece i s line hs hline
      simpa using hiff

end AbsoluteImports.Encoding
