import AbsoluteImports.Text.Utf8

/-!
# Reading and writing UTF-8

The strict reader accepts exactly what the writer gives: a text that was read is written back as
the same bytes, and a text that was written is read again. The byte of a line feed stands for
nothing else.
-/

namespace AbsoluteImports.Utf8

theorem toUInt8_eq {n : Nat} {b : UInt8} (h : n = b.toNat) : n.toUInt8 = b := by
  subst h
  exact UInt8.ofNat_toNat

theorem toNat_toUInt8 {n : Nat} (h : n < 256) : n.toUInt8.toNat = n := by
  rw [Nat.toUInt8, UInt8.toNat_ofNat']
  exact Nat.mod_eq_of_lt h

theorem charFrom?_eq_some {least n : Nat} {c : Char} (h : charFrom? least n = some c) :
    c.toNat = n ∧ least ≤ n := by
  unfold charFrom? at h
  by_cases hvalid : n.isValidChar
  · rw [dif_pos hvalid] at h
    obtain ⟨hle, hc⟩ := Option.ite_none_right_eq_some.mp h
    cases hc
    exact ⟨rfl, hle⟩
  · rw [dif_neg hvalid] at h
    cases h

theorem map_charFrom?_eq_some {least n k k' : Nat} {c : Char}
    (h : (charFrom? least n).map (·, k) = some (c, k')) : k' = k ∧ c.toNat = n ∧ least ≤ n := by
  obtain ⟨c', hc, he⟩ := Option.map_eq_some_iff.mp h
  cases he
  exact ⟨rfl, charFrom?_eq_some hc⟩

theorem charFrom?_toNat {least : Nat} {c : Char} (h : least ≤ c.toNat) :
    charFrom? least c.toNat = some c := by
  have hvalid : c.toNat.isValidChar := c.valid
  rw [charFrom?, dif_pos hvalid, if_pos h]
  exact congrArg some (Char.toNat_inj.mp rfl)

theorem isContinuation_iff {b : UInt8} :
    isContinuation b = true ↔ 0x80 ≤ b.toNat ∧ b.toNat < 0xC0 := by
  simp [isContinuation]

/-! ### One character -/

theorem encodeChar_one {c : Char} {a : UInt8} (ha : a.toNat < 0x80) (hc : c.toNat = a.toNat) :
    encodeChar c = [a] := by
  simp only [encodeChar]
  rw [if_pos (by omega), toUInt8_eq hc]

theorem encodeChar_two {c : Char} {a b : UInt8} (ha : 0xC0 ≤ a.toNat ∧ a.toNat < 0xE0)
    (hb : isContinuation b = true) (hc : c.toNat = (a.toNat - 0xC0) * 64 + (b.toNat - 0x80))
    (hleast : 0x80 ≤ c.toNat) : encodeChar c = [a, b] := by
  have hb' := isContinuation_iff.mp hb
  simp only [encodeChar]
  rw [if_neg (by omega), if_pos (by omega), toUInt8_eq (b := a) (by omega),
    toUInt8_eq (b := b) (by omega)]

theorem encodeChar_three {c : Char} {a b d : UInt8} (ha : 0xE0 ≤ a.toNat ∧ a.toNat < 0xF0)
    (hb : isContinuation b = true) (hd : isContinuation d = true)
    (hc : c.toNat = (a.toNat - 0xE0) * 4096 + (b.toNat - 0x80) * 64 + (d.toNat - 0x80))
    (hleast : 0x800 ≤ c.toNat) : encodeChar c = [a, b, d] := by
  have hb' := isContinuation_iff.mp hb
  have hd' := isContinuation_iff.mp hd
  simp only [encodeChar]
  rw [if_neg (by omega), if_neg (by omega), if_pos (by omega), toUInt8_eq (b := a) (by omega),
    toUInt8_eq (b := b) (by omega), toUInt8_eq (b := d) (by omega)]

theorem encodeChar_four {c : Char} {a b d e : UInt8} (ha : 0xF0 ≤ a.toNat ∧ a.toNat < 0xF8)
    (hb : isContinuation b = true) (hd : isContinuation d = true) (he : isContinuation e = true)
    (hc : c.toNat = (a.toNat - 0xF0) * 262144 + (b.toNat - 0x80) * 4096 + (d.toNat - 0x80) * 64 +
      (e.toNat - 0x80))
    (hleast : 0x10000 ≤ c.toNat) : encodeChar c = [a, b, d, e] := by
  have hb' := isContinuation_iff.mp hb
  have hd' := isContinuation_iff.mp hd
  have he' := isContinuation_iff.mp he
  simp only [encodeChar]
  rw [if_neg (by omega), if_neg (by omega), if_neg (by omega), toUInt8_eq (b := a) (by omega),
    toUInt8_eq (b := b) (by omega), toUInt8_eq (b := d) (by omega), toUInt8_eq (b := e) (by omega)]

theorem encodeChar_of_next? {a : UInt8} {r : Bytes} {c : Char} {k : Nat}
    (h : next? (a :: r) = some (c, k)) : a :: r = encodeChar c ++ r.drop k := by
  simp only [next?, Bool.and_eq_true, decide_eq_true_eq] at h
  split at h
  · rename_i ha
    obtain ⟨rfl, hn, -⟩ := map_charFrom?_eq_some h
    rw [encodeChar_one ha hn]
    rfl
  · split at h
    · rename_i ha
      split at h
      · rename_i b r
        split at h
        · rename_i hb
          obtain ⟨rfl, hn, hleast⟩ := map_charFrom?_eq_some h
          rw [encodeChar_two ha hb hn (hn ▸ hleast)]
          rfl
        · cases h
      · cases h
    · split at h
      · rename_i ha
        split at h
        · rename_i b d r
          split at h
          · rename_i hbd
            obtain ⟨rfl, hn, hleast⟩ := map_charFrom?_eq_some h
            rw [encodeChar_three ha hbd.1 hbd.2 hn (hn ▸ hleast)]
            rfl
          · cases h
        · cases h
      · split at h
        · rename_i ha
          split at h
          · rename_i b d e r
            split at h
            · rename_i hbde
              obtain ⟨rfl, hn, hleast⟩ := map_charFrom?_eq_some h
              rw [encodeChar_four ha hbde.1.1 hbde.1.2 hbde.2 hn (hn ▸ hleast)]
              rfl
            · cases h
          · cases h
        · cases h

theorem toNat_bounds (c : Char) :
    c.toNat < 0xD800 ∨ (0xDFFF < c.toNat ∧ c.toNat < 0x110000) := c.valid

theorem isContinuation_toUInt8 (n : Nat) : isContinuation (0x80 + n % 64).toUInt8 = true := by
  rw [isContinuation_iff, toNat_toUInt8 (by omega)]
  omega

section Next
variable {c : Char} (rest : Bytes)

theorem next?_one (hlt : c.toNat < 0x80) : next? (c.toNat.toUInt8 :: rest) = some (c, 0) := by
  simp only [next?, toNat_toUInt8 (show c.toNat < 256 by omega), hlt, ↓reduceIte]
  rw [charFrom?_toNat (Nat.zero_le _)]
  rfl

theorem next?_two (hleast : 0x80 ≤ c.toNat) (hlt : c.toNat < 0x800) :
    next? ((0xC0 + c.toNat / 64).toUInt8 :: (0x80 + c.toNat % 64).toUInt8 :: rest) =
      some (c, 1) := by
  have ha := toNat_toUInt8 (n := 0xC0 + c.toNat / 64) (by omega)
  have hb := toNat_toUInt8 (n := 0x80 + c.toNat % 64) (by omega)
  have hn : (0xC0 + c.toNat / 64 - 0xC0) * 64 + (0x80 + c.toNat % 64 - 0x80) = c.toNat := by
    omega
  simp only [next?, ha, hb, isContinuation_toUInt8, hn, Bool.and_eq_true, decide_eq_true_eq,
    ↓reduceIte]
  rw [if_neg (by omega), if_pos (by omega), charFrom?_toNat hleast]
  rfl

theorem next?_three (hleast : 0x800 ≤ c.toNat) (hlt : c.toNat < 0x10000) :
    next? ((0xE0 + c.toNat / 4096).toUInt8 :: (0x80 + c.toNat / 64 % 64).toUInt8 ::
      (0x80 + c.toNat % 64).toUInt8 :: rest) = some (c, 2) := by
  have ha := toNat_toUInt8 (n := 0xE0 + c.toNat / 4096) (by omega)
  have hb := toNat_toUInt8 (n := 0x80 + c.toNat / 64 % 64) (by omega)
  have hd := toNat_toUInt8 (n := 0x80 + c.toNat % 64) (by omega)
  have hn : (0xE0 + c.toNat / 4096 - 0xE0) * 4096 + (0x80 + c.toNat / 64 % 64 - 0x80) * 64 +
      (0x80 + c.toNat % 64 - 0x80) = c.toNat := by
    omega
  simp only [next?, ha, hb, hd, isContinuation_toUInt8, hn, Bool.and_eq_true, decide_eq_true_eq,
    and_self, ↓reduceIte]
  rw [if_neg (by omega), if_neg (by omega), if_pos (by omega), charFrom?_toNat hleast]
  rfl

theorem next?_four (hleast : 0x10000 ≤ c.toNat) :
    next? ((0xF0 + c.toNat / 262144).toUInt8 :: (0x80 + c.toNat / 4096 % 64).toUInt8 ::
      (0x80 + c.toNat / 64 % 64).toUInt8 :: (0x80 + c.toNat % 64).toUInt8 :: rest) =
        some (c, 3) := by
  have hc := toNat_bounds c
  have ha := toNat_toUInt8 (n := 0xF0 + c.toNat / 262144) (by omega)
  have hb := toNat_toUInt8 (n := 0x80 + c.toNat / 4096 % 64) (by omega)
  have hd := toNat_toUInt8 (n := 0x80 + c.toNat / 64 % 64) (by omega)
  have he := toNat_toUInt8 (n := 0x80 + c.toNat % 64) (by omega)
  have hn : (0xF0 + c.toNat / 262144 - 0xF0) * 262144 + (0x80 + c.toNat / 4096 % 64 - 0x80) * 4096 +
      (0x80 + c.toNat / 64 % 64 - 0x80) * 64 + (0x80 + c.toNat % 64 - 0x80) = c.toNat := by
    omega
  simp only [next?, ha, hb, hd, he, isContinuation_toUInt8, hn, Bool.and_eq_true,
    decide_eq_true_eq, and_self, ↓reduceIte]
  rw [if_neg (by omega), if_neg (by omega), if_neg (by omega), if_pos (by omega),
    charFrom?_toNat hleast]
  rfl

end Next

theorem next?_encodeChar (c : Char) (rest : Bytes) :
    ∃ a r k, encodeChar c ++ rest = a :: r ∧ next? (a :: r) = some (c, k) ∧ r.drop k = rest := by
  simp only [encodeChar]
  split
  · rename_i hone
    exact ⟨_, _, 0, rfl, next?_one rest hone, rfl⟩
  · rename_i hone
    split
    · rename_i htwo
      exact ⟨_, _, 1, rfl, next?_two rest (Nat.not_lt.mp hone) htwo, rfl⟩
    · rename_i htwo
      split
      · rename_i hthree
        exact ⟨_, _, 2, rfl, next?_three rest (Nat.not_lt.mp htwo) hthree, rfl⟩
      · rename_i hthree
        exact ⟨_, _, 3, rfl, next?_four rest (Nat.not_lt.mp hthree), rfl⟩

/-! ### Texts -/

theorem encode_of_decode? {bs : Bytes} {text : Text} (h : decode? bs = some text) :
    encode text = bs := by
  fun_induction decode? bs generalizing text with
  | case1 =>
    cases h
    rfl
  | case2 a r c k hnext ih =>
    obtain ⟨rest, hrest, he⟩ := Option.map_eq_some_iff.mp h
    cases he
    rw [encode, List.flatMap_cons, encodeChar_of_next? hnext]
    congr 1
    exact ih hrest
  | case3 => cases h

theorem decode?_encode (text : Text) : decode? (encode text) = some text := by
  induction text with
  | nil => simp [encode, decode?]
  | cons c text ih =>
    obtain ⟨a, r, k, hbytes, hnext, hrest⟩ := next?_encodeChar c (encode text)
    rw [encode, List.flatMap_cons, ← encode, hbytes, decode?, hnext]
    simp only [hrest, ih, Option.map_some]

/-! ### Line feeds -/

theorem encodeChar_ne_nil (c : Char) : encodeChar c ≠ [] := by
  simp only [encodeChar]
  split
  · exact List.cons_ne_nil _ _
  · split
    · exact List.cons_ne_nil _ _
    · split
      · exact List.cons_ne_nil _ _
      · exact List.cons_ne_nil _ _

/-- A byte below `0x80` is a character of its own. -/
theorem toNat_of_mem_encodeChar {c : Char} {b : UInt8} (h : b ∈ encodeChar c) :
    b.toNat = c.toNat ∨ 0x80 ≤ b.toNat := by
  have hmax := toNat_bounds c
  have hhigh : ∀ n : Nat, 0x80 ≤ n → n < 256 → b = n.toUInt8 → 0x80 ≤ b.toNat := by
    intro n hn hlt he
    rw [he, toNat_toUInt8 hlt]
    exact hn
  simp only [encodeChar] at h
  split at h
  · rename_i hc
    left
    rw [List.mem_singleton.mp h, toNat_toUInt8 (by omega)]
  · right
    split at h
    · simp only [List.mem_cons, List.not_mem_nil, or_false] at h
      rcases h with h | h
      · exact hhigh _ (by omega) (by omega) h
      · exact hhigh _ (by omega) (by omega) h
    · split at h
      · simp only [List.mem_cons, List.not_mem_nil, or_false] at h
        rcases h with h | h | h
        · exact hhigh _ (by omega) (by omega) h
        · exact hhigh _ (by omega) (by omega) h
        · exact hhigh _ (by omega) (by omega) h
      · simp only [List.mem_cons, List.not_mem_nil, or_false] at h
        rcases h with h | h | h | h
        · exact hhigh _ (by omega) (by omega) h
        · exact hhigh _ (by omega) (by omega) h
        · exact hhigh _ (by omega) (by omega) h
        · exact hhigh _ (by omega) (by omega) h

theorem eq_lineFeed_of_mem {c : Char} (h : 0x0A ∈ encodeChar c) : c = '\n' := by
  rcases toNat_of_mem_encodeChar h with hc | hc
  · exact Char.toNat_inj.mp hc.symm
  · exact absurd hc (by decide)

end AbsoluteImports.Utf8
