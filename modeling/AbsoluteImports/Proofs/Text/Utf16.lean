import AbsoluteImports.Text.Utf16
import AbsoluteImports.Proofs.Text.Utf8

/-!
# What reading UTF-16 keeps

Reading UTF-16 never fails, so it keeps only well-formed content: `encode_decode_iff` says that
bytes are written back as they were exactly when no byte is left over and every surrogate stands
in a pair. Line feeds are kept in any case, since no unit pairs with one.
-/

namespace AbsoluteImports.Utf16

/-- Units that a text can be written as: every surrogate stands in a pair. -/
inductive WellFormed : List UInt16 → Prop
  | nil : WellFormed []
  | single {u : UInt16} {us : List UInt16} (h : isSurrogate u = false) (rest : WellFormed us) :
      WellFormed (u :: us)
  | pair {u v : UInt16} {us : List UInt16} (hu : isHigh u = true) (hv : isLow v = true)
      (rest : WellFormed us) : WellFormed (u :: v :: us)

/-! ### Characters -/

theorem isSurrogate_iff {u : UInt16} :
    isSurrogate u = true ↔ 0xD800 ≤ u.toNat ∧ u.toNat < 0xE000 := by simp [isSurrogate]

theorem isHigh_iff {u : UInt16} : isHigh u = true ↔ 0xD800 ≤ u.toNat ∧ u.toNat < 0xDC00 := by
  simp [isHigh]

theorem isLow_iff {u : UInt16} : isLow u = true ↔ 0xDC00 ≤ u.toNat ∧ u.toNat < 0xE000 := by
  simp [isLow]

theorem toUInt16_eq {n : Nat} {u : UInt16} (h : n = u.toNat) : n.toUInt16 = u := by
  subst h
  exact UInt16.ofNat_toNat

theorem toNat_toUInt16 {n : Nat} (h : n < 65536) : n.toUInt16.toNat = n := by
  rw [Nat.toUInt16, UInt16.toNat_ofNat']
  exact Nat.mod_eq_of_lt h

theorem toNat_ofNat {n : Nat} (h : n.isValidChar) : (Char.ofNat n).toNat = n := by
  rw [Char.ofNat, dif_pos h]
  rfl

theorem toNat_single {u : UInt16} (h : isSurrogate u = false) : (single u).toNat = u.toNat := by
  have hlt := u.toNat_lt
  have hu := mt isSurrogate_iff.mpr (Bool.eq_false_iff.mp h)
  rw [single, if_neg (by simp [h])]
  refine toNat_ofNat ?_
  unfold Nat.isValidChar
  omega

theorem toNat_paired {u v : UInt16} (hu : isHigh u = true) (hv : isLow v = true) :
    (paired u v).toNat = 0x10000 + (u.toNat - 0xD800) * 0x400 + (v.toNat - 0xDC00) := by
  have hu' := isHigh_iff.mp hu
  have hv' := isLow_iff.mp hv
  rw [paired, if_pos hu]
  refine toNat_ofNat ?_
  unfold Nat.isValidChar
  omega

theorem encodeChar_single {u : UInt16} (h : isSurrogate u = false) :
    encodeChar (single u) = [u] := by
  have hlt := u.toNat_lt
  simp only [encodeChar, toNat_single h]
  rw [if_pos (by omega), toUInt16_eq rfl]

theorem encodeChar_paired {u v : UInt16} (hu : isHigh u = true) (hv : isLow v = true) :
    encodeChar (paired u v) = [u, v] := by
  have hu' := isHigh_iff.mp hu
  have hv' := isLow_iff.mp hv
  simp only [encodeChar, toNat_paired hu hv]
  rw [if_neg (by omega), toUInt16_eq (u := u) (by omega), toUInt16_eq (u := v) (by omega)]

/-! ### Units -/

theorem decodeUnits_single {u : UInt16} (h : isSurrogate u = false) (us : List UInt16) :
    decodeUnits (u :: us) = single u :: decodeUnits us := by
  cases us with
  | nil => rfl
  | cons v us => simp [decodeUnits, h]

theorem decodeUnits_pair {u v : UInt16} (hu : isHigh u = true) (hv : isLow v = true)
    (us : List UInt16) : decodeUnits (u :: v :: us) = paired u v :: decodeUnits us := by
  have hs : isSurrogate u = true := by
    have hu' := isHigh_iff.mp hu
    exact isSurrogate_iff.mpr (by omega)
  simp [decodeUnits, hs, hv]

theorem encodeUnits_decodeUnits {us : List UInt16} (h : WellFormed us) :
    encodeUnits (decodeUnits us) = us := by
  induction h with
  | nil => rfl
  | single hu _ ih =>
    rw [decodeUnits_single hu, encodeUnits, List.flatMap_cons, encodeChar_single hu]
    exact congrArg _ ih
  | pair hu hv _ ih =>
    rw [decodeUnits_pair hu hv, encodeUnits, List.flatMap_cons, encodeChar_paired hu hv]
    exact congrArg _ ih

theorem wellFormed_encodeChar_append (c : Char) {us : List UInt16} (h : WellFormed us) :
    WellFormed (encodeChar c ++ us) := by
  have hc := Utf8.toNat_bounds c
  simp only [encodeChar]
  split
  · refine .single (Bool.eq_false_iff.mpr fun hs => ?_) h
    have hs' := isSurrogate_iff.mp hs
    rw [toNat_toUInt16 (by omega)] at hs'
    omega
  · refine .pair (isHigh_iff.mpr ?_) (isLow_iff.mpr ?_) h
    · rw [toNat_toUInt16 (by omega)]
      omega
    · rw [toNat_toUInt16 (by omega)]
      omega

theorem wellFormed_encodeUnits (s : Text) : WellFormed (encodeUnits s) := by
  induction s with
  | nil => exact .nil
  | cons c s ih => exact wellFormed_encodeChar_append c ih

theorem decodeUnits_append {w : UInt16} (hw : isLow w = false) (us vs : List UInt16) :
    decodeUnits (us ++ w :: vs) = decodeUnits us ++ decodeUnits (w :: vs) := by
  fun_induction decodeUnits us with
  | case1 => rfl
  | case2 u =>
    simp only [List.cons_append, List.nil_append, decodeUnits, hw, Bool.and_false,
      Bool.false_eq_true, ↓reduceIte]
  | case3 u v r hpair ih =>
    simp only [List.cons_append, decodeUnits, hpair, ↓reduceIte, ih]
  | case4 u v r hpair ih =>
    rw [List.cons_append] at ih
    simp only [List.cons_append, decodeUnits, hpair, Bool.false_eq_true, ↓reduceIte, ih]

theorem decodeUnits_encodeChar_append (c : Char) (us : List UInt16) :
    decodeUnits (encodeChar c ++ us) = c :: decodeUnits us := by
  have hc := Utf8.toNat_bounds c
  simp only [encodeChar]
  split
  · have hn := toNat_toUInt16 (n := c.toNat) (by omega)
    have hs : isSurrogate c.toNat.toUInt16 = false := by
      refine Bool.eq_false_iff.mpr fun hs => ?_
      have hs' := isSurrogate_iff.mp hs
      omega
    have hsingle : single c.toNat.toUInt16 = c := Char.toNat_inj.mp ((toNat_single hs).trans hn)
    rw [List.singleton_append, decodeUnits_single hs, hsingle]
  · have hn := toNat_toUInt16 (n := 0xD800 + (c.toNat - 0x10000) / 0x400) (by omega)
    have hm := toNat_toUInt16 (n := 0xDC00 + (c.toNat - 0x10000) % 0x400) (by omega)
    have hu : isHigh (0xD800 + (c.toNat - 0x10000) / 0x400).toUInt16 = true :=
      isHigh_iff.mpr (by omega)
    have hv : isLow (0xDC00 + (c.toNat - 0x10000) % 0x400).toUInt16 = true :=
      isLow_iff.mpr (by omega)
    have hpaired := toNat_paired hu hv
    rw [hn, hm] at hpaired
    have hchar := Char.toNat_inj.mp (hpaired.trans (by omega : _ = c.toNat))
    rw [List.cons_append, List.singleton_append, decodeUnits_pair hu hv, hchar]

theorem decodeUnits_encodeUnits (s : Text) : decodeUnits (encodeUnits s) = s := by
  induction s with
  | nil => rfl
  | cons c s ih =>
    rw [encodeUnits, List.flatMap_cons, decodeUnits_encodeChar_append, ← encodeUnits, ih]

/-! ### Line feeds -/

theorem isSurrogate_lineFeed : isSurrogate 0x0A = false := by decide

theorem single_eq_lineFeed {u : UInt16} (h : single u = '\n') : u = 0x0A := by
  cases hs : isSurrogate u with
  | true =>
    rw [single, if_pos hs] at h
    exact absurd h (by decide)
  | false =>
    have hn := toNat_single hs
    rw [h] at hn
    exact UInt16.toNat_inj.mp hn.symm

theorem paired_ne_lineFeed {u v : UInt16} (hv : isLow v = true) : paired u v ≠ '\n' := by
  intro h
  cases hu : isHigh u with
  | true =>
    have hn := toNat_paired hu hv
    rw [h] at hn
    have hten : '\n'.toNat = 10 := rfl
    omega
  | false =>
    rw [paired, if_neg (by simp [hu])] at h
    exact absurd h (by decide)

theorem eq_lineFeed_of_mem {c : Char} (h : 0x0A ∈ encodeChar c) : c = '\n' := by
  have hc := Utf8.toNat_bounds c
  have hunit : ∀ n : Nat, n < 65536 → (0x0A : UInt16) = n.toUInt16 → n = 10 := by
    intro n hn he
    have hnat := congrArg UInt16.toNat he
    rw [toNat_toUInt16 hn] at hnat
    exact hnat.symm
  simp only [encodeChar] at h
  split at h
  · exact Char.toNat_inj.mp (hunit _ (by omega) (List.mem_singleton.mp h))
  · simp only [List.mem_cons, List.not_mem_nil, or_false] at h
    rcases h with h | h
    · exact absurd (hunit _ (by omega) h) (by omega)
    · exact absurd (hunit _ (by omega) h) (by omega)

theorem lineFeed_of_mem_decodeUnits {us : List UInt16} (h : '\n' ∈ decodeUnits us) :
    0x0A ∈ us := by
  fun_induction decodeUnits us with
  | case1 => exact absurd h List.not_mem_nil
  | case2 u =>
    have hu := single_eq_lineFeed (List.mem_singleton.mp h).symm
    exact List.mem_singleton.mpr hu.symm
  | case3 u v r hpair ih =>
    rw [Bool.and_eq_true] at hpair
    rcases List.mem_cons.mp h with h | h
    · exact absurd h.symm (paired_ne_lineFeed hpair.2)
    · exact List.mem_cons_of_mem _ (List.mem_cons_of_mem _ (ih h))
  | case4 u v r hpair ih =>
    rcases List.mem_cons.mp h with h | h
    · exact List.mem_cons.mpr (.inl (single_eq_lineFeed h.symm).symm)
    · exact List.mem_cons_of_mem _ (ih h)

theorem decodeUnits_ne_nil {us : List UInt16} (h : us ≠ []) : decodeUnits us ≠ [] := by
  fun_cases decodeUnits us with
  | case1 => exact absurd rfl h
  | case2 u => exact List.cons_ne_nil _ _
  | case3 u v r hpair => exact List.cons_ne_nil _ _
  | case4 u v r hpair => exact List.cons_ne_nil _ _

/-- No unit pairs with a line feed, so what stands before it and behind it is read apart. -/
theorem decodeUnits_append_lineFeed (us vs : List UInt16) :
    decodeUnits (us ++ 0x0A :: vs) = decodeUnits us ++ '\n' :: decodeUnits vs := by
  have hlow : isLow 0x0A = false := by decide
  rw [decodeUnits_append hlow, decodeUnits_single isSurrogate_lineFeed]
  rfl

/-! ### Bytes -/

theorem unitBytes_unitOf (o : Order) (a b : UInt8) : unitBytes o (unitOf o a b) = [a, b] := by
  have ha := a.toNat_lt
  have hb := b.toNat_lt
  cases o with
  | little =>
    simp only [unitBytes, unitOf]
    rw [toNat_toUInt16 (by omega), Utf8.toUInt8_eq (b := a) (by omega),
      Utf8.toUInt8_eq (b := b) (by omega)]
  | big =>
    simp only [unitBytes, unitOf]
    rw [toNat_toUInt16 (by omega), Utf8.toUInt8_eq (b := a) (by omega),
      Utf8.toUInt8_eq (b := b) (by omega)]

theorem unitBytes_eq (o : Order) (u : UInt16) :
    ∃ a b, unitBytes o u = [a, b] ∧ unitOf o a b = u := by
  have hu := u.toNat_lt
  have hlow : (u.toNat % 256).toUInt8.toNat = u.toNat % 256 := Utf8.toNat_toUInt8 (by omega)
  have hhigh : (u.toNat / 256).toUInt8.toNat = u.toNat / 256 := Utf8.toNat_toUInt8 (by omega)
  cases o with
  | little =>
    refine ⟨_, _, rfl, ?_⟩
    simp only [unitOf, hlow, hhigh]
    exact toUInt16_eq (by omega)
  | big =>
    refine ⟨_, _, rfl, ?_⟩
    simp only [unitOf, hlow, hhigh]
    exact toUInt16_eq (by omega)

theorem unitBytes_injective {o : Order} {u v : UInt16} (h : unitBytes o u = unitBytes o v) :
    u = v := by
  obtain ⟨a, b, hu, rfl⟩ := unitBytes_eq o u
  obtain ⟨c, d, hv, rfl⟩ := unitBytes_eq o v
  rw [hu, hv] at h
  cases h
  rfl

theorem units_flatMap (o : Order) (us : List UInt16) :
    units o (us.flatMap (unitBytes o)) = (us, false) := by
  induction us with
  | nil => rfl
  | cons u us ih =>
    obtain ⟨a, b, hbytes, hunit⟩ := unitBytes_eq o u
    simp only [List.flatMap_cons, hbytes, List.cons_append, List.nil_append, units, ih, hunit]

theorem flatMap_units {o : Order} {bs : Bytes} (h : (units o bs).2 = false) :
    (units o bs).1.flatMap (unitBytes o) = bs := by
  fun_induction units o bs with
  | case1 => rfl
  | case2 => cases h
  | case3 a b r us odd hunits ih =>
    rw [hunits] at ih
    simp only [List.flatMap_cons, unitBytes_unitOf, List.cons_append, List.nil_append] at ih ⊢
    rw [ih h]

/-- Bytes that hold whole units, in which every surrogate stands in a pair. -/
def Sound (o : Order) (bs : Bytes) : Prop := (units o bs).2 = false ∧ WellFormed (units o bs).1

theorem encode_decode_iff (o : Order) (bs : Bytes) : encode o (decode o bs) = bs ↔ Sound o bs := by
  constructor
  · intro h
    have hunits := units_flatMap o (encodeUnits (decode o bs))
    rw [← encode, h] at hunits
    rw [Sound, hunits]
    exact ⟨rfl, wellFormed_encodeUnits _⟩
  · rintro ⟨hodd, hformed⟩
    simp only [decode, hodd, Bool.false_eq_true, ↓reduceIte, List.append_nil]
    rw [encode, encodeUnits_decodeUnits hformed, flatMap_units hodd]

theorem decode_encode (o : Order) (s : Text) : decode o (encode o s) = s := by
  simp only [decode, encode, units_flatMap, decodeUnits_encodeUnits, Bool.false_eq_true,
    ↓reduceIte, List.append_nil]

end AbsoluteImports.Utf16
