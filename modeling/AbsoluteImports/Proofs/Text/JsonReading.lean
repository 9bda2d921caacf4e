import AbsoluteImports.Proofs.Text.JsonGrammar

/-!
# Reading JSON values

The reader takes from the front of a text exactly what the grammar allows. What it gives was spelled
there, with white space in front. What is spelled at the front it gives back, whatever follows: only
a number has to be cut off from a longer one.
-/

namespace AbsoluteImports.JsonValue

open Text (Stops stops_nil stops_cons)

variable {s k w : Text} {v : JsonValue} {vs : List JsonValue} {ms : List (Text × JsonValue)}
  {n : Nat}

/-! ### White space -/

theorem exists_skip (s : Text) : ∃ w, s = w ++ skip s ∧ IsSpace w :=
  ⟨s.takeWhile isSpace, List.takeWhile_append_dropWhile.symm,
    fun _ hc => Text.of_mem_takeWhile hc⟩

theorem skip_append (hw : IsSpace w) (s : Text) : skip (w ++ s) = skip s :=
  List.dropWhile_append_of_pos hw

theorem skip_of_stops (h : Stops isSpace s) : skip s = s := Text.dropWhile_eq_self h

theorem IsSpace.append {w w' : Text} (hw : IsSpace w) (hw' : IsSpace w') : IsSpace (w ++ w') := by
  intro c hc
  rcases List.mem_append.mp hc with hc | hc
  · exact hw c hc
  · exact hw' c hc

theorem Spells.spaced_append (hw : IsSpace w) (h : Spells s (.spaced v)) :
    Spells (w ++ s) (.spaced v) := by
  obtain ⟨w₁, b, w₂, rfl, hw₁, hb, hw₂⟩ := h.exists_value
  rw [← List.append_assoc, ← List.append_assoc]
  exact .spaced (hw.append hw₁) hb hw₂

theorem Spells.items_append (hw : IsSpace w) (h : Spells s (.items vs)) :
    Spells (w ++ s) (.items vs) := by
  cases h with
  | item h => exact .item (h.spaced_append hw)
  | moreItems h hrest =>
    rw [← List.append_assoc]
    exact .moreItems (h.spaced_append hw) hrest

theorem IsName.space_append {name : Text} (hw : IsSpace w) (h : IsName s name) :
    IsName (w ++ s) name := by
  obtain ⟨w₁, q, w₂, rfl, hw₁, hq, hw₂⟩ := h
  exact ⟨w ++ w₁, q, w₂, by simp, hw.append hw₁, hq, hw₂⟩

theorem Spells.members_append (hw : IsSpace w) (h : Spells s (.members ms)) :
    Spells (w ++ s) (.members ms) := by
  cases h with
  | member hname h =>
    rw [← List.append_assoc]
    exact .member (hname.space_append hw) h
  | moreMembers hname h hrest =>
    rw [← List.append_assoc, ← List.append_assoc]
    exact .moreMembers (hname.space_append hw) h hrest

/-! ### What is read was spelled -/

/-- What a reader of values gives was spelled at the front. -/
def SoundValues (read : Text → Option (JsonValue × Text)) : Prop :=
  ∀ s v k, read s = some (v, k) →
    ∃ w b, s = w ++ b ++ k ∧ IsSpace w ∧ Spells b (.value v)

def SoundItems (read : Text → Option (List JsonValue × Text)) : Prop :=
  ∀ s vs k, read s = some (vs, k) → ∃ b, s = b ++ ']' :: k ∧ Spells b (.items vs)

def SoundMembers (read : Text → Option (List (Text × JsonValue) × Text)) : Prop :=
  ∀ s ms k, read s = some (ms, k) → ∃ b, s = b ++ '\x7d' :: k ∧ Spells b (.members ms)

theorem value?_front (hitems : SoundItems (items? n)) (hmembers : SoundMembers (members? n))
    (h : value? (n + 1) s = some (v, k)) : ∃ b, skip s = b ++ k ∧ Spells b (.value v) := by
  unfold value? at h
  split at h
  · rename_i r heq
    obtain ⟨⟨t, k'⟩, hstring, hpair⟩ := Option.map_eq_some_iff.mp h
    cases hpair
    obtain ⟨q, hq, ht⟩ := string?_eq_some hstring
    exact ⟨q, heq.trans hq, .string ht⟩
  · rename_i r heq
    obtain ⟨w', hr, hw'⟩ := exists_skip r
    split at h
    · rename_i k' hclose
      cases h
      exact ⟨'[' :: w' ++ [']'], by rw [heq, hr, hclose]; simp, .noItems hw'⟩
    · obtain ⟨⟨vs, k'⟩, hread, hpair⟩ := Option.map_eq_some_iff.mp h
      cases hpair
      obtain ⟨b, hb, hspells⟩ := hitems _ _ _ hread
      exact ⟨'[' :: (w' ++ b) ++ [']'], by rw [heq, hr, hb]; simp,
        .array (hspells.items_append hw')⟩
  · rename_i r heq
    obtain ⟨w', hr, hw'⟩ := exists_skip r
    split at h
    · rename_i k' hclose
      cases h
      exact ⟨'\x7b' :: w' ++ ['\x7d'], by rw [heq, hr, hclose]; simp, .noMembers hw'⟩
    · obtain ⟨⟨ms, k'⟩, hread, hpair⟩ := Option.map_eq_some_iff.mp h
      cases hpair
      obtain ⟨b, hb, hspells⟩ := hmembers _ _ _ hread
      exact ⟨'\x7b' :: (w' ++ b) ++ ['\x7d'], by rw [heq, hr, hb]; simp,
        .object (hspells.members_append hw')⟩
  · rename_i k' heq
    cases h
    exact ⟨_, heq, .boolTrue⟩
  · rename_i k' heq
    cases h
    exact ⟨_, heq, .boolFalse⟩
  · rename_i k' heq
    cases h
    exact ⟨_, heq, .null⟩
  · obtain ⟨⟨t, k'⟩, hnumber, hpair⟩ := Option.map_eq_some_iff.mp h
    cases hpair
    obtain ⟨hskip, ht⟩ := number?_eq_some hnumber
    exact ⟨_, hskip, .number ht⟩

theorem value?_sound (hitems : SoundItems (items? n)) (hmembers : SoundMembers (members? n)) :
    SoundValues (value? (n + 1)) := by
  intro s v k h
  obtain ⟨w, hs, hw⟩ := exists_skip s
  obtain ⟨b, hb, hspells⟩ := value?_front hitems hmembers h
  exact ⟨w, b, by rw [List.append_assoc, ← hb, ← hs], hw, hspells⟩

theorem SoundValues.spaced {read : Text → Option (JsonValue × Text)} (h : SoundValues read)
    (hread : read s = some (v, k)) : ∃ b, s = b ++ skip k ∧ Spells b (.spaced v) := by
  obtain ⟨w, b, hs, hw, hb⟩ := h _ _ _ hread
  obtain ⟨w', hk, hw'⟩ := exists_skip k
  refine ⟨w ++ b ++ w', ?_, .spaced hw hb hw'⟩
  rw [List.append_assoc (w ++ b), ← hk, hs]

theorem items?_sound (hvalues : SoundValues (value? n)) (hitems : SoundItems (items? n)) :
    SoundItems (items? (n + 1)) := by
  intro s vs k h
  unfold items? at h
  obtain ⟨⟨v, k₁⟩, hvalue, hnext⟩ := Option.bind_eq_some_iff.mp h
  clear h
  obtain ⟨b, rfl, hb⟩ := hvalues.spaced hvalue
  simp only at hnext
  split at hnext
  · rename_i r hcomma
    obtain ⟨⟨vs', k₂⟩, hread, hpair⟩ := Option.bind_eq_some_iff.mp hnext
    cases hpair
    obtain ⟨rest, rfl, hrest⟩ := hitems _ _ _ hread
    exact ⟨b ++ ',' :: rest, by rw [hcomma]; simp, .moreItems hb hrest⟩
  · rename_i r hclose
    cases hnext
    exact ⟨b, by rw [hclose], .item hb⟩
  · cases hnext

theorem members?_sound (hvalues : SoundValues (value? n)) (hmembers : SoundMembers (members? n)) :
    SoundMembers (members? (n + 1)) := by
  intro s ms k h
  obtain ⟨w, hs, hw⟩ := exists_skip s
  unfold members? at h
  split at h
  · rename_i r hquote
    obtain ⟨⟨name, k₁⟩, hstring, hcolon⟩ := Option.bind_eq_some_iff.mp h
    clear h
    obtain ⟨q, hq, hstring⟩ := string?_eq_some hstring
    obtain ⟨w', hk₁, hw'⟩ := exists_skip k₁
    have hname : IsName (w ++ q ++ w') name := ⟨w, q, w', rfl, hw, hstring, hw'⟩
    have hfront : s = w ++ q ++ w' ++ skip k₁ := by
      rw [List.append_assoc (w ++ q), ← hk₁, List.append_assoc, ← hq, ← hquote, ← hs]
    simp only at hcolon
    split at hcolon
    · rename_i r₁ heq
      obtain ⟨⟨v, k₂⟩, hvalue, hnext⟩ := Option.bind_eq_some_iff.mp hcolon
      clear hcolon
      obtain ⟨b, rfl, hb⟩ := hvalues.spaced hvalue
      simp only at hnext
      split at hnext
      · rename_i r₂ hcomma
        obtain ⟨⟨ms', k₃⟩, hread, hpair⟩ := Option.bind_eq_some_iff.mp hnext
        cases hpair
        obtain ⟨rest, rfl, hrest⟩ := hmembers _ _ _ hread
        exact ⟨_, by rw [hfront, heq, hcomma]; simp, .moreMembers hname hb hrest⟩
      · rename_i r₂ hclose
        cases hnext
        exact ⟨_, by rw [hfront, heq, hclose]; simp, .member hname hb⟩
      · cases hnext
    · cases hcolon
  · cases h

theorem reads_sound (n : Nat) :
    SoundValues (value? n) ∧ SoundItems (items? n) ∧ SoundMembers (members? n) := by
  induction n with
  | zero => exact ⟨nofun, nofun, nofun⟩
  | succ n ih =>
    obtain ⟨hvalues, hitems, hmembers⟩ := ih
    exact ⟨value?_sound hitems hmembers, items?_sound hvalues hitems,
      members?_sound hvalues hmembers⟩

/-! ### What is spelled is read -/

theorem skip_skip (s : Text) : skip (skip s) = skip s := skip_of_stops (Text.stops_dropWhile s)

theorem value?_skip (n : Nat) (hw : IsSpace w) (s : Text) : value? n (w ++ s) = value? n s := by
  cases n with
  | zero => rfl
  | succ n => rw [value?, value?, skip_append hw]

theorem items?_skip (n : Nat) (s : Text) : items? n (skip s) = items? n s := by
  cases n with
  | zero => rfl
  | succ n =>
    obtain ⟨w, hs, hw⟩ := exists_skip s
    have hvalue : value? n s = value? n (skip s) := by
      rw [← value?_skip n hw (skip s), ← hs]
    rw [items?, items?, hvalue]

theorem members?_skip (n : Nat) (s : Text) : members? n (skip s) = members? n s := by
  cases n with
  | zero => rfl
  | succ n => rw [members?, members?, skip_skip]

theorem value?_array {r : Text} (h : Stops (· == ']') (skip r)) (n : Nat) :
    value? (n + 1) ('[' :: r) = (items? n r).map fun (vs, k) => (.array vs, k) := by
  have hskip : skip ('[' :: r) = '[' :: r := rfl
  rw [value?, hskip]
  simp only
  split
  · rename_i k hclose
    rw [hclose, stops_cons] at h
    cases h
  · rw [items?_skip]

theorem value?_object {r : Text} (h : Stops (· == '\x7d') (skip r)) (n : Nat) :
    value? (n + 1) ('\x7b' :: r) = (members? n r).map fun (ms, k) => (.object ms, k) := by
  have hskip : skip ('\x7b' :: r) = '\x7b' :: r := rfl
  rw [value?, hskip]
  simp only
  split
  · rename_i k hclose
    rw [hclose, stops_cons] at h
    cases h
  · rw [members?_skip]

theorem starts_number {c : Char} (h : c = '-' ∨ c.isDigit = true) :
    isSpace c = false ∧ c ≠ ']' := by
  rcases h with rfl | h
  · decide
  · refine ⟨?_, ne_of_isDigit h rfl⟩
    simp [isSpace, ne_of_isDigit h (d := ' ') rfl, ne_of_isDigit h (d := '\t') rfl,
      ne_of_isDigit h (d := '\n') rfl, ne_of_isDigit h (d := '\r') rfl]

theorem value?_number {c : Char} {r : Text} (h : c = '-' ∨ c.isDigit = true) (n : Nat) :
    value? (n + 1) (c :: r) = (number? (c :: r)).map fun (n, k) => (.number n, k) := by
  rw [value?, skip_of_stops (stops_cons.mpr (starts_number h).1)]
  split
  · rename_i heq
    cases heq
    exact absurd h (by decide)
  · rename_i heq
    cases heq
    exact absurd h (by decide)
  · rename_i heq
    cases heq
    exact absurd h (by decide)
  · rename_i heq
    cases heq
    exact absurd h (by decide)
  · rename_i heq
    cases heq
    exact absurd h (by decide)
  · rename_i heq
    cases heq
    exact absurd h (by decide)
  · rfl

theorem Spells.head (h : Spells s (.value v)) :
    ∃ c r, s = c :: r ∧ isSpace c = false ∧ c ≠ ']' := by
  cases h with
  | null => exact ⟨'n', _, rfl, by decide⟩
  | boolTrue => exact ⟨'t', _, rfl, by decide⟩
  | boolFalse => exact ⟨'f', _, rfl, by decide⟩
  | number h =>
    obtain ⟨c, r, rfl, hc⟩ := h.head
    exact ⟨c, r, rfl, starts_number hc⟩
  | string h =>
    obtain ⟨body, ps, rfl, -⟩ := h
    exact ⟨'"', _, rfl, by decide⟩
  | noItems hw => exact ⟨'[', _, rfl, by decide⟩
  | array h => exact ⟨'[', _, rfl, by decide⟩
  | noMembers hw => exact ⟨'\x7b', _, rfl, by decide⟩
  | object h => exact ⟨'\x7b', _, rfl, by decide⟩

/-- What the value at the front needs of the text behind it. -/
def Ends : JsonValue → Text → Prop
  | .number _, k => Stops lengthens k
  | _, _ => True

/-- The readers give back what a text spells, when they are let go deep enough. -/
def ReadBack (s : Text) : Piece → Prop
  -- an item takes two levels, one for the list and one for its value, and at least one character
  | .value v => ∀ n k, 2 * s.length ≤ n + 1 → Ends v k → value? n (s ++ k) = some (v, k)
  | .spaced v => ∀ n k, 2 * s.length ≤ n + 1 → Stops isSpace k → Stops lengthens k →
      ∃ k', value? n (s ++ k) = some (v, k') ∧ skip k' = k
  | .items vs => ∀ n k, 2 * s.length ≤ n → items? n (s ++ ']' :: k) = some (vs, k)
  | .members ms => ∀ n k, 2 * s.length ≤ n → members? n (s ++ '\x7d' :: k) = some (ms, k)

theorem Spells.skip_append (h : Spells s (.value v)) (k : Text) :
    skip (s ++ k) = s ++ k ∧ Stops (· == ']') (s ++ k) := by
  obtain ⟨c, r, rfl, hspace, hclose⟩ := h.head
  exact ⟨skip_of_stops (stops_cons.mpr hspace), stops_cons.mpr (by simpa using hclose)⟩

theorem Spells.skip_spaced (h : Spells s (.spaced v)) (k : Text) :
    Stops (· == ']') (skip (s ++ k)) := by
  obtain ⟨w, b, w', rfl, hw, hb, -⟩ := h.exists_value
  obtain ⟨hskip, hclose⟩ := hb.skip_append (w' ++ k)
  rw [List.append_assoc, List.append_assoc, JsonValue.skip_append hw, hskip]
  exact hclose

theorem Spells.skip_items (h : Spells s (.items vs)) (k : Text) :
    Stops (· == ']') (skip (s ++ k)) := by
  cases h with
  | item h => exact h.skip_spaced k
  | moreItems h hrest =>
    rw [List.append_assoc]
    exact h.skip_spaced _

theorem IsName.read {name : Text} (h : IsName s name) (k : Text) :
    ∃ r k', skip (s ++ ':' :: k) = '"' :: r ∧ string? r = some (name, k') ∧
      skip k' = ':' :: k := by
  obtain ⟨w, q, w', rfl, hw, hq, hw'⟩ := h
  obtain ⟨r, hr, hstring⟩ := hq.string?_append (w' ++ ':' :: k)
  refine ⟨r, w' ++ ':' :: k, ?_, hstring, skip_append hw' _⟩
  rw [List.append_assoc, List.append_assoc, skip_append hw, hr]
  rfl

theorem Spells.skip_members (h : Spells s (.members ms)) (k : Text) :
    Stops (· == '\x7d') (skip (s ++ k)) := by
  cases h with
  | member hname h =>
    obtain ⟨r, -, hskip, -⟩ := hname.read (_ ++ k)
    rw [List.append_assoc, List.cons_append, hskip]
    exact stops_cons.mpr rfl
  | moreMembers hname h hrest =>
    obtain ⟨r, -, hskip, -⟩ := hname.read (_ ++ (_ ++ k))
    rw [List.append_assoc, List.append_assoc, List.cons_append, hskip]
    exact stops_cons.mpr rfl

theorem exists_succ (h : Spells s (.value v)) (hn : 2 * s.length ≤ n + 1) : ∃ m, n = m + 1 := by
  obtain ⟨c, r, rfl, -⟩ := h.head
  rw [List.length_cons] at hn
  exact ⟨n - 1, by omega⟩

theorem Spells.length_pos (h : Spells s (.spaced v)) : 0 < s.length := by
  obtain ⟨w, b, w', rfl, -, hb, -⟩ := h.exists_value
  obtain ⟨c, r, rfl, -⟩ := hb.head
  simp only [List.length_append, List.length_cons]
  omega

theorem plain_of_isSpace {c : Char} (h : isSpace c = true) :
    lengthens c = false ∧ c.toNat < 0x80 := by
  simp only [isSpace, Bool.or_eq_true, beq_iff_eq] at h
  rcases h with ((rfl | rfl) | rfl) | rfl
  · decide
  · decide
  · decide
  · decide

theorem IsSpace.stops_append (hw : IsSpace w) (hk : Stops lengthens k) :
    Stops lengthens (w ++ k) := by
  cases w with
  | nil => exact hk
  | cons c r => exact stops_cons.mpr (plain_of_isSpace (hw c (List.mem_cons_self ..))).1

theorem ends_of_stops (hk : Stops lengthens k) (v : JsonValue) : Ends v k := by
  cases v with
  | number t => exact hk
  | null => trivial
  | bool b => trivial
  | string t => trivial
  | array vs => trivial
  | object ms => trivial

theorem readBack_spaced {w' : Text} (hw : IsSpace w) (hw' : IsSpace w')
    (hback : ReadBack s (.value v)) : ReadBack (w ++ s ++ w') (.spaced v) := by
  intro n k hn hspace hlengthens
  simp only [List.length_append] at hn
  refine ⟨w' ++ k, ?_, ?_⟩
  · rw [List.append_assoc, List.append_assoc, value?_skip n hw]
    exact hback n (w' ++ k) (by omega) (ends_of_stops (hw'.stops_append hlengthens) v)
  · rw [skip_append hw', skip_of_stops hspace]

theorem readBack_noItems (hw : IsSpace w) :
    ReadBack ('[' :: w ++ [']']) (.value (.array [])) := by
  intro n k hn _
  obtain ⟨n, rfl⟩ := exists_succ (.noItems hw) hn
  have hskip : skip ('[' :: (w ++ ']' :: k)) = '[' :: (w ++ ']' :: k) := rfl
  have hclose : skip (w ++ ']' :: k) = ']' :: k := skip_append hw _
  rw [List.append_assoc, List.singleton_append, List.cons_append, value?, hskip]
  simp only [hclose]

theorem readBack_noMembers (hw : IsSpace w) :
    ReadBack ('\x7b' :: w ++ ['\x7d']) (.value (.object [])) := by
  intro n k hn _
  obtain ⟨n, rfl⟩ := exists_succ (.noMembers hw) hn
  have hskip : skip ('\x7b' :: (w ++ '\x7d' :: k)) = '\x7b' :: (w ++ '\x7d' :: k) := rfl
  have hclose : skip (w ++ '\x7d' :: k) = '\x7d' :: k := skip_append hw _
  rw [List.append_assoc, List.singleton_append, List.cons_append, value?, hskip]
  simp only [hclose]

theorem readBack_array (h : Spells s (.items vs)) (hback : ReadBack s (.items vs)) :
    ReadBack ('[' :: s ++ [']']) (.value (.array vs)) := by
  intro n k hn _
  obtain ⟨n, rfl⟩ := exists_succ h.array hn
  simp only [List.length_append, List.length_cons, List.length_nil] at hn
  rw [List.append_assoc, List.singleton_append, List.cons_append, value?_array (h.skip_items _),
    hback n k (by omega)]
  rfl

theorem readBack_object (h : Spells s (.members ms)) (hback : ReadBack s (.members ms)) :
    ReadBack ('\x7b' :: s ++ ['\x7d']) (.value (.object ms)) := by
  intro n k hn _
  obtain ⟨n, rfl⟩ := exists_succ h.object hn
  simp only [List.length_append, List.length_cons, List.length_nil] at hn
  rw [List.append_assoc, List.singleton_append, List.cons_append, value?_object (h.skip_members _),
    hback n k (by omega)]
  rfl

theorem readBack_item (h : Spells s (.spaced v)) (hback : ReadBack s (.spaced v)) :
    ReadBack s (.items [v]) := by
  intro n k hn
  have hpos := h.length_pos
  obtain ⟨n, rfl⟩ : ∃ m, n = m + 1 := ⟨n - 1, by omega⟩
  obtain ⟨k', hvalue, hnext⟩ := hback n (']' :: k) (by omega) (stops_cons.mpr rfl)
    (stops_cons.mpr rfl)
  simp only [items?, hvalue, hnext, Option.bind_eq_bind, Option.bind_some]

theorem readBack_moreItems {rest : Text} (hback : ReadBack s (.spaced v))
    (hrest : ReadBack rest (.items vs)) : ReadBack (s ++ ',' :: rest) (.items (v :: vs)) := by
  intro n k hn
  simp only [List.length_append, List.length_cons] at hn
  obtain ⟨n, rfl⟩ : ∃ m, n = m + 1 := ⟨n - 1, by omega⟩
  obtain ⟨k', hvalue, hnext⟩ := hback n (',' :: (rest ++ ']' :: k)) (by omega)
    (stops_cons.mpr rfl) (stops_cons.mpr rfl)
  rw [List.append_assoc, List.cons_append]
  simp only [items?, hvalue, hnext, hrest n k (by omega), Option.bind_eq_bind, Option.bind_some]

theorem readBack_member {head name : Text} (hname : IsName head name)
    (hback : ReadBack s (.spaced v)) : ReadBack (head ++ ':' :: s) (.members [(name, v)]) := by
  intro n k hn
  simp only [List.length_append, List.length_cons] at hn
  obtain ⟨n, rfl⟩ : ∃ m, n = m + 1 := ⟨n - 1, by omega⟩
  obtain ⟨r, k₁, hquote, hstring, hcolon⟩ := hname.read (s ++ '\x7d' :: k)
  obtain ⟨k₂, hvalue, hnext⟩ := hback n ('\x7d' :: k) (by omega) (stops_cons.mpr rfl)
    (stops_cons.mpr rfl)
  rw [List.append_assoc, List.cons_append]
  simp only [members?, hquote, hstring, hcolon, hvalue, hnext, Option.bind_eq_bind,
    Option.bind_some]

theorem readBack_moreMembers {head name rest : Text} (hname : IsName head name)
    (hback : ReadBack s (.spaced v)) (hrest : ReadBack rest (.members ms)) :
    ReadBack (head ++ ':' :: s ++ ',' :: rest) (.members ((name, v) :: ms)) := by
  intro n k hn
  simp only [List.length_append, List.length_cons] at hn
  obtain ⟨n, rfl⟩ : ∃ m, n = m + 1 := ⟨n - 1, by omega⟩
  obtain ⟨r, k₁, hquote, hstring, hcolon⟩ := hname.read (s ++ ',' :: (rest ++ '\x7d' :: k))
  obtain ⟨k₂, hvalue, hnext⟩ := hback n (',' :: (rest ++ '\x7d' :: k)) (by omega)
    (stops_cons.mpr rfl) (stops_cons.mpr rfl)
  rw [List.append_assoc, List.append_assoc, List.cons_append, List.cons_append]
  simp only [members?, hquote, hstring, hcolon, hvalue, hnext, hrest n k (by omega),
    Option.bind_eq_bind, Option.bind_some]

theorem Spells.readBack {p : Piece} (h : Spells s p) : ReadBack s p := by
  induction h with
  | null =>
    intro n k hn _
    obtain ⟨n, rfl⟩ := exists_succ .null hn
    rfl
  | boolTrue =>
    intro n k hn _
    obtain ⟨n, rfl⟩ := exists_succ .boolTrue hn
    rfl
  | boolFalse =>
    intro n k hn _
    obtain ⟨n, rfl⟩ := exists_succ .boolFalse hn
    rfl
  | number h =>
    intro n k hn hends
    obtain ⟨n, rfl⟩ := exists_succ (.number h) hn
    obtain ⟨c, r, rfl, hc⟩ := h.head
    rw [List.cons_append, value?_number hc, ← List.cons_append, number?_append h hends]
    rfl
  | string h =>
    intro n k hn _
    obtain ⟨n, rfl⟩ := exists_succ (.string h) hn
    obtain ⟨r, hr, hstring⟩ := h.string?_append k
    have hskip : skip ('"' :: r) = '"' :: r := rfl
    rw [hr, value?, hskip]
    simp only [hstring, Option.map_some]
  | noItems hw => exact readBack_noItems hw
  | array h hback => exact readBack_array h hback
  | noMembers hw => exact readBack_noMembers hw
  | object h hback => exact readBack_object h hback
  | spaced hw h hw' hback => exact readBack_spaced hw hw' hback
  | item h hback => exact readBack_item h hback
  | moreItems h hrest hback hbacks => exact readBack_moreItems hback hbacks
  | member hname h hback => exact readBack_member hname hback
  | moreMembers hname h hrest hback hbacks => exact readBack_moreMembers hname hback hbacks

theorem read?_append (hw : IsSpace w) (h : Spells s (.value v)) (hends : Ends v k) :
    read? (w ++ s ++ k) = some (v, k) := by
  rw [read?, List.append_assoc, value?_skip _ hw]
  refine h.readBack _ k ?_ hends
  simp only [List.length_append]
  omega

theorem read?_eq_some (h : read? s = some (v, k)) :
    ∃ w b, s = w ++ b ++ k ∧ IsSpace w ∧ Spells b (.value v) :=
  (reads_sound _).1 _ _ _ h

/-- A text is one value with white space around it exactly when white space is all that the reader
leaves behind the value. -/
theorem spells_spaced_iff : Spells s (.spaced v) ↔ ∃ w, read? s = some (v, w) ∧ IsSpace w := by
  constructor
  · intro h
    obtain ⟨w, b, w', rfl, hw, hb, hw'⟩ := h.exists_value
    have hstops : Stops lengthens w' := by
      rw [← List.append_nil w']
      exact hw'.stops_append stops_nil
    exact ⟨w', read?_append hw hb (ends_of_stops hstops v), hw'⟩
  · intro h
    obtain ⟨w', hread, hw'⟩ := h
    obtain ⟨w, b, rfl, hw, hb⟩ := read?_eq_some hread
    exact .spaced hw hb hw'

end AbsoluteImports.JsonValue
