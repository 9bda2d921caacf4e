import AbsoluteImports.Proofs.Encoding.Rereading

/-!
# What reading and writing keep

Writing keeps every text: what was written is read again, in the encoding that was used, unless
plain UTF-8 begins with the character of the mark (`decode_encode_exact`). Reading keeps content
in UTF-8. In UTF-16 it keeps whole units whose surrogates stand in pairs, and nothing else
(`encode_eq_content_iff`).
-/

namespace AbsoluteImports.Utf16

/-! ### Surrogates by their positions -/

/-- The unit at a position, made of two neighbouring bytes. -/
def unitAt? (o : Order) (bs : Bytes) (k : Nat) : Option UInt16 := do
  some (unitOf o (← bs[2 * k]?) (← bs[2 * k + 1]?))

/-- Every unit that opens a pair has a closing one right behind it, and every unit that closes a
pair has an opening one right before it. -/
structure Matched (unit : Nat → Option UInt16) : Prop where
  high : ∀ k u, unit k = some u → isHigh u = true → ∃ v, unit (k + 1) = some v ∧ isLow v = true
  low : ∀ k v, unit k = some v → isLow v = true →
    ∃ j u, k = j + 1 ∧ unit j = some u ∧ isHigh u = true

theorem isLow_of_isHigh {u : UInt16} (h : isHigh u = true) : isLow u = false := by
  have hu := isHigh_iff.mp h
  refine Bool.eq_false_iff.mpr fun hlow => ?_
  have hl := isLow_iff.mp hlow
  omega

theorem isHigh_of_isLow {u : UInt16} (h : isLow u = true) : isHigh u = false := by
  refine Bool.eq_false_iff.mpr fun hhigh => ?_
  rw [isLow_of_isHigh hhigh] at h
  cases h

theorem isSurrogate_eq_false_iff {u : UInt16} :
    isSurrogate u = false ↔ isHigh u = false ∧ isLow u = false := by
  simp only [← Bool.not_eq_true, isSurrogate_iff, isHigh_iff, isLow_iff]
  omega

/-- Behind a unit that opens nothing, the surrogates stand in pairs of their own. -/
theorem Matched.behind (us : List UInt16) {vs : List UInt16} {u : UInt16} (hu : isHigh u = false)
    (h : Matched fun k => (us ++ u :: vs)[k]?) : Matched fun k => vs[k]? := by
  have hshift : ∀ k : Nat, (us ++ u :: vs)[us.length + 1 + k]? = vs[k]? := by
    intro k
    rw [List.getElem?_append_right (by omega),
      show us.length + 1 + k - us.length = k + 1 by omega, List.getElem?_cons_succ]
  have hself : (us ++ u :: vs)[us.length]? = some u := by simp
  refine ⟨fun k x hx hhigh => ?_, fun k x hx hlow => ?_⟩
  · obtain ⟨v, hv, hl⟩ := h.high (us.length + 1 + k) x ((hshift k).trans hx) hhigh
    exact ⟨v, (hshift (k + 1)).symm.trans hv, hl⟩
  · obtain ⟨j, v, hj, hv, hh⟩ := h.low (us.length + 1 + k) x ((hshift k).trans hx) hlow
    cases k with
    | zero =>
      -- the opening unit would be the one in front
      obtain rfl : j = us.length := by omega
      rw [hself, Option.some.injEq] at hv
      rw [← hv, hu] at hh
      cases hh
    | succ k =>
      obtain rfl : j = us.length + 1 + k := by omega
      exact ⟨k, v, rfl, (hshift k).symm.trans hv, hh⟩

theorem WellFormed.matched {us : List UInt16} (h : WellFormed us) :
    Matched fun k => us[k]? := by
  induction h with
  | nil => exact ⟨fun k u hu => by simp at hu, fun k u hu => by simp at hu⟩
  | @single u us hu _ ih =>
    obtain ⟨hnotHigh, hnotLow⟩ := isSurrogate_eq_false_iff.mp hu
    refine ⟨fun k x hx hhigh => ?_, fun k x hx hlow => ?_⟩
    · cases k with
      | zero =>
        cases hx
        rw [hnotHigh] at hhigh
        cases hhigh
      | succ k => exact ih.high k x hx hhigh
    · cases k with
      | zero =>
        cases hx
        rw [hnotLow] at hlow
        cases hlow
      | succ k =>
        obtain ⟨j, v, rfl, hv, hh⟩ := ih.low k x hx hlow
        exact ⟨j + 1, v, rfl, hv, hh⟩
  | @pair u v us hu hv _ ih =>
    refine ⟨fun k x hx hhigh => ?_, fun k x hx hlow => ?_⟩
    · rcases k with _ | _ | k
      · exact ⟨v, rfl, hv⟩
      · cases hx
        rw [isHigh_of_isLow hv] at hhigh
        cases hhigh
      · exact ih.high k x hx hhigh
    · rcases k with _ | _ | k
      · cases hx
        rw [isLow_of_isHigh hu] at hlow
        cases hlow
      · exact ⟨0, u, rfl, rfl, hu⟩
      · obtain ⟨j, w, rfl, hw, hh⟩ := ih.low k x hx hlow
        exact ⟨j + 2, w, rfl, hw, hh⟩

theorem Matched.wellFormed : ∀ {us : List UInt16}, Matched (fun k => us[k]?) → WellFormed us
  | [], _ => .nil
  | u :: us, h => by
    cases hhigh : isHigh u with
    | false =>
      have hlow : isLow u = false := by
        refine Bool.eq_false_iff.mpr fun hlow => ?_
        obtain ⟨j, -, hj, -⟩ := h.low 0 u rfl hlow
        omega
      exact .single (isSurrogate_eq_false_iff.mpr ⟨hhigh, hlow⟩)
        (Matched.behind [] hhigh h).wellFormed
    | true =>
      obtain ⟨v, hv, hlow⟩ := h.high 0 u rfl hhigh
      cases us with
      | nil => cases hv
      | cons w us =>
        cases hv
        exact .pair hhigh hlow (Matched.behind [u] (isHigh_of_isLow hlow) h).wellFormed

/-! ### Whole units -/

theorem getElem?_units (o : Order) (bs : Bytes) (k : Nat) :
    (units o bs).1[k]? = unitAt? o bs k := by
  fun_induction units o bs generalizing k with
  | case1 => simp [unitAt?]
  | case2 a => cases k <;> simp [unitAt?]
  | case3 a b r us odd hunits ih =>
    cases k with
    | zero => simp [unitAt?]
    | succ k =>
      rw [hunits] at ih
      rw [List.getElem?_cons_succ, ih]
      rfl

theorem odd_units_iff (o : Order) (bs : Bytes) :
    (units o bs).2 = false ↔ bs.length % 2 = 0 := by
  fun_induction units o bs with
  | case1 => simp
  | case2 a => simp
  | case3 a b r us odd hunits ih =>
    rw [hunits] at ih
    rw [List.length_cons, List.length_cons, ih]
    omega

theorem sound_iff {o : Order} {bs : Bytes} :
    Sound o bs ↔ bs.length % 2 = 0 ∧ Matched (unitAt? o bs) := by
  have hunits : (fun k => (units o bs).1[k]?) = unitAt? o bs := funext (getElem?_units o bs)
  rw [Sound, odd_units_iff, ← hunits]
  exact and_congr_right fun _ => ⟨WellFormed.matched, Matched.wellFormed⟩

end AbsoluteImports.Utf16

namespace AbsoluteImports.Encoding

/-! ### Reading -/

/-- Content is written back as it was read exactly when it is in UTF-8, with a mark or without
one, or an even number of bytes with its surrogates in pairs stands behind the mark. -/
theorem encode_eq_content_iff {content : Bytes} {text : Text} {e : Encoding}
    (h : decode content = .ok (text, e)) :
    encode text e = content ↔
      e = utf8 ∨ e = utf8Mark ∨
        ∃ o bs, e = utf16 o ∧ content = (utf16 o).mark ++ bs ∧ bs.length % 2 = 0 ∧
          Utf16.Matched (Utf16.unitAt? o bs) := by
  cases e with
  | utf8 =>
    refine iff_of_true ?_ (.inl rfl)
    rw [encode_eq_body, ← eq_body_of_decode h (by simp)]
  | utf8Mark =>
    refine iff_of_true ?_ (.inr (.inl rfl))
    rw [encode_eq_body, ← eq_body_of_decode h (by simp)]
  | utf16 o =>
    obtain ⟨hdetect, hread⟩ := decode_eq_ok h
    obtain ⟨bs, rfl⟩ : ∃ bs, content = (utf16 o).mark ++ bs := by
      have hmark := mark_append_drop content
      rw [← hdetect] at hmark
      exact ⟨_, hmark.symm⟩
    simp only [decodeAs?, List.drop_left, Option.some.injEq] at hread
    have hkept : encode text (utf16 o) = (utf16 o).mark ++ bs ↔ Utf16.Sound o bs := by
      rw [← Utf16.encode_decode_iff, hread]
      exact List.append_right_inj _
    rw [hkept, Utf16.sound_iff]
    constructor
    · rintro ⟨heven, hmatched⟩
      exact .inr (.inr ⟨o, bs, rfl, rfl, heven, hmatched⟩)
    · rintro (hno | hno | ⟨o', bs', ho, hbs, heven, hmatched⟩)
      · cases hno
      · cases hno
      · cases ho
        rw [List.append_cancel_left hbs]
        exact ⟨heven, hmatched⟩

/-- A pair and a replacement character that was written as such come back. A unit that closes a
pair without an opening one does not, though the pair behind it is read. -/
theorem encode_eq_content_iff_replaced :
    (∃ text, decode [0xFF, 0xFE, 0x3D, 0xD8, 0x00, 0xDE, 0xFD, 0xFF] = .ok (text, utf16 .little) ∧
      encode text (utf16 .little) = [0xFF, 0xFE, 0x3D, 0xD8, 0x00, 0xDE, 0xFD, 0xFF]) ∧
    ∃ text, decode [0xFE, 0xFF, 0xDC, 0x00, 0xD8, 0x3D, 0xDE, 0x00] = .ok (text, utf16 .big) ∧
      encode text (utf16 .big) ≠ [0xFE, 0xFF, 0xDC, 0x00, 0xD8, 0x3D, 0xDE, 0x00] := by
  refine ⟨⟨_, rfl, ?_⟩, ⟨_, rfl, ?_⟩⟩
  · have hsound : Utf16.Sound .little [0x3D, 0xD8, 0x00, 0xDE, 0xFD, 0xFF] :=
      ⟨by decide, .pair (by decide) (by decide) (.single (by decide) .nil)⟩
    obtain ⟨heven, hmatched⟩ := Utf16.sound_iff.mp hsound
    exact (encode_eq_content_iff rfl).mpr (.inr (.inr ⟨.little, _, rfl, rfl, heven, hmatched⟩))
  · intro heq
    rcases (encode_eq_content_iff rfl).mp heq with hno | hno | ⟨o, bs, ho, hbs, -, hmatched⟩
    · cases hno
    · cases hno
    · cases ho
      cases hbs
      obtain ⟨j, -, hj, -⟩ := hmatched.low 0 0xDC00 (by decide) (by decide)
      omega

/-! ### Writing -/

theorem encode_markChar (rest : Text) : encode (markChar :: rest) utf8 = encode rest utf8Mark := by
  have hbytes : Utf8.encodeChar markChar = utf8Mark.mark := by decide
  simp only [encode, Utf8.encode, List.flatMap_cons, hbytes]
  rfl

/-- Every text is read as it was written and in the encoding that was used, whatever it holds,
but for the character of the mark in front of plain UTF-8: that is the mark to the next reader. -/
theorem decode_encode_exact (text : Text) :
    decode (encode text utf8Mark) = .ok (text, utf8Mark) ∧
    (∀ o, decode (encode text (utf16 o)) = .ok (text, utf16 o)) ∧
    decode (encode text utf8) =
      .ok (if text.head? = some markChar then (text.tail, utf8Mark) else (text, utf8)) := by
  refine ⟨decode_encode (by simp), fun o => decode_encode (by simp), ?_⟩
  split
  · rename_i hhead
    cases text with
    | nil => cases hhead
    | cons c rest =>
      cases hhead
      rw [encode_markChar, List.tail_cons]
      exact decode_encode (by simp)
  · rename_i hhead
    exact decode_encode fun _ => hhead

end AbsoluteImports.Encoding
