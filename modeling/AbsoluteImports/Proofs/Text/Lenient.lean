import AbsoluteImports.Proofs.Text.Utf8

/-!
# Reading UTF-8 with replacements

A byte that starts no character is replaced, and the bytes behind it are read on their own. The
bytes can be cut where a character of the text ends, and behind a character of one byte others can
be put: either way the two parts are read as they stand alone.
-/

namespace AbsoluteImports.Utf8

variable {a : UInt8} {r front rest : Bytes} {c : Char} {k : Nat} {x y : Text}

theorem decodeLenient_nil : decodeLenient [] = [] := by rw [decodeLenient]

theorem decodeLenient_encodeChar (c : Char) (rest : Bytes) :
    decodeLenient (encodeChar c ++ rest) = c :: decodeLenient rest := by
  obtain ⟨a, r, k, hbytes, hnext, hrest⟩ := next?_encodeChar c rest
  rw [hbytes, decodeLenient, hnext]
  simp only [hrest]

theorem next?_eq_none_iff : next? (a :: r) = none ↔ ∀ c, ¬encodeChar c <+: a :: r := by
  constructor
  · intro hnone c hstands
    obtain ⟨rest, hrest⟩ := hstands
    obtain ⟨a', r', k, hbytes, hnext, -⟩ := next?_encodeChar c rest
    rw [← hrest, hbytes, hnext] at hnone
    cases hnone
  · intro hstands
    cases hnext : next? (a :: r) with
    | none => rfl
    | some found =>
      obtain ⟨c, k⟩ := found
      exact absurd ⟨_, (encodeChar_of_next? hnext).symm⟩ (hstands c)

theorem decodeLenient_broken (h : ∀ c, ¬encodeChar c <+: a :: r) :
    decodeLenient (a :: r) = replacement :: decodeLenient r := by
  rw [decodeLenient, next?_eq_none_iff.mpr h]

theorem exists_decodeLenient {bs : Bytes} (h : decodeLenient bs = x ++ y) :
    ∃ front rest, bs = front ++ rest ∧ decodeLenient front = x ∧ decodeLenient rest = y := by
  fun_induction decodeLenient bs generalizing x with
  | case1 =>
    obtain ⟨rfl, rfl⟩ := List.append_eq_nil_iff.mp h.symm
    exact ⟨[], [], rfl, decodeLenient_nil, decodeLenient_nil⟩
  | case2 a r c k hnext ih =>
    cases x with
    | nil =>
      refine ⟨[], a :: r, rfl, decodeLenient_nil, ?_⟩
      rw [decodeLenient, hnext]
      exact h
    | cons d x =>
      obtain ⟨rfl, htail⟩ := List.cons.inj h
      obtain ⟨front, rest, hr, hfront, hrest⟩ := ih htail
      refine ⟨encodeChar c ++ front, rest, ?_, ?_, hrest⟩
      · rw [encodeChar_of_next? hnext, hr, List.append_assoc]
      · rw [decodeLenient_encodeChar, hfront]
  | case3 a r hnext ih =>
    cases x with
    | nil =>
      refine ⟨[], a :: r, rfl, decodeLenient_nil, ?_⟩
      rw [decodeLenient, hnext]
      exact h
    | cons d x =>
      obtain ⟨rfl, htail⟩ := List.cons.inj h
      obtain ⟨front, rest, rfl, hfront, hrest⟩ := ih htail
      refine ⟨a :: front, rest, rfl, ?_, hrest⟩
      rw [decodeLenient_broken, hfront]
      intro c hstands
      exact next?_eq_none_iff.mp hnext c (hstands.trans (List.prefix_append (a :: front) rest))

theorem encodeChar_of_lt (h : c.toNat < 0x80) : encodeChar c = [c.toNat.toUInt8] := by
  simp only [encodeChar, h, ↓reduceIte]

theorem decodeLenient_ne_nil (a : UInt8) (r : Bytes) : decodeLenient (a :: r) ≠ [] := by
  rw [decodeLenient]
  split
  · exact List.cons_ne_nil _ _
  · exact List.cons_ne_nil _ _

/-- The last byte, if there is one, is a character of its own. -/
def Closed (bs : Bytes) : Prop := ∀ b ∈ bs.getLast?, b.toNat < 0x80

theorem Closed.of_append (front : Bytes) (h : Closed (front ++ rest)) : Closed rest := by
  intro b hb
  refine h b ?_
  rw [List.getLast?_append, Option.mem_def.mp hb]
  rfl

theorem Closed.append (front : Bytes) (hne : rest ≠ []) (h : Closed rest) :
    Closed (front ++ rest) := by
  intro b hb
  rw [List.getLast?_append, List.getLast?_eq_some_getLast hne, Option.some_or] at hb
  exact h b (by rw [List.getLast?_eq_some_getLast hne]; exact hb)

theorem closed_of_decodeLenient {bs : Bytes} (hc : c.toNat < 0x80)
    (h : (decodeLenient bs).getLast? = some c) : Closed bs := by
  fun_induction decodeLenient bs with
  | case1 => simp [Closed]
  | case2 a r d k hnext ih =>
    rw [encodeChar_of_next? hnext]
    cases hrest : r.drop k with
    | nil =>
      rw [hrest, decodeLenient_nil] at h
      obtain rfl : d = c := by simpa using h
      intro b hb
      rw [List.append_nil, encodeChar_of_lt hc] at hb
      cases hb
      rw [List.getLast_singleton, toNat_toUInt8 (by omega)]
      exact hc
    | cons b bs =>
      rw [hrest] at h ih
      rw [List.getLast?_cons_of_ne_nil (decodeLenient_ne_nil b bs)] at h
      exact (ih h).append _ (List.cons_ne_nil b bs)
  | case3 a r hnext ih =>
    cases r with
    | nil =>
      rw [decodeLenient_nil] at h
      obtain rfl : replacement = c := by simpa using h
      exact absurd hc (by decide)
    | cons b bs =>
      rw [List.getLast?_cons_of_ne_nil (decodeLenient_ne_nil b bs)] at h
      exact (ih h).append [a] (List.cons_ne_nil b bs)

/-- No character goes across the end of bytes that are closed. -/
theorem Closed.not_prefix (h : Closed (a :: r)) (hbroken : ∀ c, ¬encodeChar c <+: a :: r)
    (rest : Bytes) (c : Char) : ¬encodeChar c <+: a :: (r ++ rest) := by
  intro hstands
  rcases List.prefix_or_prefix_of_prefix hstands (List.prefix_append (a :: r) rest) with hin | hout
  · exact hbroken c hin
  · -- the last byte would be one of the character, which then has no other
    have hlow := h _ (List.getLast?_eq_some_getLast (List.cons_ne_nil a r))
    have hc : c.toNat < 0x80 := by
      rcases toNat_of_mem_encodeChar (hout.subset (List.getLast_mem (List.cons_ne_nil a r))) with
        heq | hhigh
      · omega
      · omega
    have hone := encodeChar_of_lt hc
    rw [hone] at hout
    obtain ⟨t, ht⟩ := hout
    obtain ⟨ha, hnil⟩ := List.cons.inj ht
    obtain ⟨rfl, rfl⟩ := List.append_eq_nil_iff.mp hnil
    exact hbroken c ⟨[], by rw [List.append_nil, hone, ha]⟩

theorem Closed.decodeLenient_append (h : Closed front) (rest : Bytes) :
    decodeLenient (front ++ rest) = decodeLenient front ++ decodeLenient rest := by
  fun_induction decodeLenient front with
  | case1 => rfl
  | case2 a r c k hnext ih =>
    have hbytes := encodeChar_of_next? hnext
    rw [hbytes] at h
    rw [hbytes, List.append_assoc, decodeLenient_encodeChar, List.cons_append, ih (h.of_append _)]
  | case3 a r hnext ih =>
    have hbroken := next?_eq_none_iff.mp hnext
    rw [List.cons_append, decodeLenient_broken (h.not_prefix hbroken rest), List.cons_append,
      ih (h.of_append [a])]

end AbsoluteImports.Utf8
