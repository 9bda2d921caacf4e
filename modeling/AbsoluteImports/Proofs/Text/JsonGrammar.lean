import AbsoluteImports.Text.JsonValue
import AbsoluteImports.Proofs.Text.Blank

/-!
# The grammar of JSON

How numbers, strings and values are spelled, apart from any reader. The readers of numbers and of
strings take from the front of a text what these rules allow, and nothing else.
-/

namespace AbsoluteImports.JsonValue

open Text (Stops stops_cons stops_append stops_of_all takeWhile_append_stops
  dropWhile_append_stops)

/-! ### Numbers -/

def IsDigits (s : Text) : Prop := s ≠ [] ∧ ∀ c ∈ s, c.isDigit = true

def IsWhole (s : Text) : Prop := s = ['0'] ∨ IsDigits s ∧ s.head? ≠ some '0'

def IsFraction (s : Text) : Prop := s = [] ∨ ∃ ds, s = '.' :: ds ∧ IsDigits ds

def IsExponent (s : Text) : Prop :=
  s = [] ∨ ∃ e sign ds, s = e :: sign ++ ds ∧ (e = 'e' ∨ e = 'E') ∧
    sign ∈ [[], ['+'], ['-']] ∧ IsDigits ds

def IsNumber (s : Text) : Prop :=
  ∃ sign whole fraction exponent, s = sign ++ whole ++ fraction ++ exponent ∧
    sign ∈ [[], ['-']] ∧ IsWhole whole ∧ IsFraction fraction ∧ IsExponent exponent

/-- The characters that can make a number longer. -/
def lengthens (c : Char) : Bool := c.isDigit || c == '.' || c == 'e' || c == 'E'

section Numbers

variable {s k ds n : Text}

theorem ne_of_isDigit {c d : Char} (hc : c.isDigit = true) (hd : d.isDigit = false) : c ≠ d := by
  intro heq
  rw [heq, hd] at hc
  cases hc

theorem not_sign_of_isDigit {c : Char} (h : c.isDigit = true) :
    (c == '+' || c == '-') = false := by
  simp [ne_of_isDigit h (d := '+') rfl, ne_of_isDigit h (d := '-') rfl]

theorem digits?_eq_some (h : digits? s = some (ds, k)) : s = ds ++ k ∧ IsDigits ds := by
  unfold digits? at h
  split at h
  · cases h
  · rename_i hne
    cases h
    refine ⟨List.takeWhile_append_dropWhile.symm, hne, fun c hc => Text.of_mem_takeWhile hc⟩

theorem digits?_append (h : IsDigits ds) (hk : Stops Char.isDigit k) :
    digits? (ds ++ k) = some (ds, k) := by
  unfold digits?
  rw [takeWhile_append_stops h.2 hk, dropWhile_append_stops h.2 hk]
  split
  · exact absurd rfl h.1
  · rfl

theorem wholePart?_eq_some (h : wholePart? s = some (ds, k)) : s = ds ++ k ∧ IsWhole ds := by
  unfold wholePart? at h
  split at h
  · cases h
    exact ⟨rfl, .inl rfl⟩
  · rename_i hzero
    obtain ⟨rfl, hds⟩ := digits?_eq_some h
    refine ⟨rfl, .inr ⟨hds, fun hhead => ?_⟩⟩
    obtain ⟨c, r, rfl⟩ := List.exists_cons_of_ne_nil hds.1
    cases hhead
    exact hzero _ rfl

theorem wholePart?_append (h : IsWhole ds) (hk : Stops Char.isDigit k) :
    wholePart? (ds ++ k) = some (ds, k) := by
  rcases h with rfl | ⟨hds, hzero⟩
  · rfl
  · unfold wholePart?
    split
    · rename_i r heq
      obtain ⟨c, r', rfl⟩ := List.exists_cons_of_ne_nil hds.1
      cases heq
      exact absurd rfl hzero
    · exact digits?_append hds hk

theorem fraction?_eq_some (h : fraction? s = some (ds, k)) : s = ds ++ k ∧ IsFraction ds := by
  unfold fraction? at h
  split at h
  · obtain ⟨⟨ds', k'⟩, hdigits, heq⟩ := Option.map_eq_some_iff.mp h
    cases heq
    obtain ⟨rfl, hds⟩ := digits?_eq_some hdigits
    exact ⟨rfl, .inr ⟨_, rfl, hds⟩⟩
  · cases h
    exact ⟨rfl, .inl rfl⟩

theorem fraction?_append (h : IsFraction ds) (hk : Stops Char.isDigit k)
    (hpoint : Stops (· == '.') k) : fraction? (ds ++ k) = some (ds, k) := by
  rcases h with rfl | ⟨ds', rfl, hds⟩
  · unfold fraction?
    split
    · rename_i r heq
      rw [List.nil_append] at heq
      rw [heq, stops_cons] at hpoint
      cases hpoint
    · rfl
  · rw [List.cons_append, fraction?, digits?_append hds hk]
    rfl

theorem mem_signs_iff {sign : Text} : sign ∈ [[], ['+'], ['-']] ↔
    sign.length ≤ 1 ∧ ∀ c ∈ sign, (c == '+' || c == '-') = true := by
  match sign with
  | [] => simp
  | [c] => simp
  | c :: d :: rest => simp

theorem exponent?_eq_some (h : exponent? s = some (ds, k)) : s = ds ++ k ∧ IsExponent ds := by
  unfold exponent? at h
  split at h
  · rename_i c r
    split at h
    · rename_i he
      simp only at h
      split at h
      · rename_i hsign
        obtain ⟨⟨ds', k'⟩, hdigits, heq⟩ := Option.map_eq_some_iff.mp h
        cases heq
        obtain ⟨hrest, hds⟩ := digits?_eq_some hdigits
        have hall : ∀ d ∈ r.takeWhile (fun d => d == '+' || d == '-'),
            (d == '+' || d == '-') = true := fun d hd => Text.of_mem_takeWhile hd
        have hfront := List.takeWhile_prefix (l := r) fun d => d == '+' || d == '-'
        generalize r.takeWhile (fun d => d == '+' || d == '-') = sign at hrest hsign hall hfront ⊢
        obtain ⟨rest, rfl⟩ := hfront
        rw [List.drop_left] at hrest
        subst hrest
        exact ⟨by simp, .inr ⟨c, sign, ds', rfl, by simpa using he,
          mem_signs_iff.mpr ⟨hsign, hall⟩, hds⟩⟩
      · cases h
    · cases h
      exact ⟨rfl, .inl rfl⟩
  · cases h
    exact ⟨rfl, .inl rfl⟩

theorem exponent?_append (h : IsExponent ds) (hk : Stops Char.isDigit k)
    (hmark : Stops (fun c => c == 'e' || c == 'E') k) : exponent? (ds ++ k) = some (ds, k) := by
  rcases h with rfl | ⟨e, sign, ds', rfl, he, hsign, hds⟩
  · cases k with
    | nil => rfl
    | cons c r =>
      rw [stops_cons] at hmark
      simp only [List.nil_append, exponent?, hmark, Bool.false_eq_true, ↓reduceIte]
  · have hmark' : (e == 'e' || e == 'E') = true := by simpa using he
    have hdigit : Stops (fun d => d == '+' || d == '-') (ds' ++ k) :=
      (stops_append hds.1).mpr (stops_of_all (fun c hc => not_sign_of_isDigit hc) hds.2)
    have hsigns := mem_signs_iff.mp hsign
    have htake := takeWhile_append_stops hsigns.2 hdigit
    simp only [List.cons_append, List.append_assoc, exponent?, hmark', ↓reduceIte, htake, hsigns.1,
      List.drop_left, digits?_append hds hk, Option.map_some]

theorem number?_eq_some (h : number? s = some (n, k)) : s = n ++ k ∧ IsNumber n := by
  unfold number? at h
  simp only [Option.bind_eq_bind, Option.bind_eq_some_iff] at h
  obtain ⟨⟨whole, s₁⟩, hwhole, ⟨fraction, s₂⟩, hfraction, ⟨exponent, s₃⟩, hexponent, heq⟩ := h
  cases heq
  obtain ⟨hs₁, hwhole'⟩ := wholePart?_eq_some hwhole
  obtain ⟨rfl, hfraction'⟩ := fraction?_eq_some hfraction
  obtain ⟨rfl, hexponent'⟩ := exponent?_eq_some hexponent
  split at hs₁
  · subst hs₁
    exact ⟨by simp, _, whole, fraction, exponent, rfl, by simp, hwhole', hfraction', hexponent'⟩
  · subst hs₁
    exact ⟨by simp, _, whole, fraction, exponent, rfl, by simp, hwhole', hfraction', hexponent'⟩

theorem IsWhole.head (h : IsWhole s) : ∃ c r, s = c :: r ∧ c.isDigit = true := by
  rcases h with rfl | ⟨hds, -⟩
  · exact ⟨'0', [], rfl, rfl⟩
  · obtain ⟨c, r, rfl⟩ := List.exists_cons_of_ne_nil hds.1
    exact ⟨c, r, rfl, hds.2 c (List.mem_cons_self ..)⟩

theorem IsNumber.head (h : IsNumber s) : ∃ c r, s = c :: r ∧ (c = '-' ∨ c.isDigit = true) := by
  obtain ⟨sign, whole, fraction, exponent, rfl, hsign, hwhole, -, -⟩ := h
  obtain ⟨c, r, rfl, hc⟩ := hwhole.head
  simp only [List.mem_cons, List.not_mem_nil, or_false] at hsign
  rcases hsign with rfl | rfl
  · exact ⟨c, r ++ fraction ++ exponent, by simp, .inr hc⟩
  · exact ⟨'-', c :: r ++ fraction ++ exponent, by simp, .inl rfl⟩

theorem IsExponent.stops (h : IsExponent s) {p : Char → Bool} (hp : p 'e' = false ∧ p 'E' = false)
    (hk : Stops p k) : Stops p (s ++ k) := by
  rcases h with rfl | ⟨e, sign, ds, rfl, rfl | rfl, -, -⟩
  · exact hk
  · exact stops_cons.mpr hp.1
  · exact stops_cons.mpr hp.2

theorem IsFraction.stops (h : IsFraction s) {p : Char → Bool} (hp : p '.' = false)
    (hk : Stops p k) : Stops p (s ++ k) := by
  rcases h with rfl | ⟨ds, rfl, -⟩
  · exact hk
  · exact stops_cons.mpr hp

theorem number?_append (h : IsNumber n) (hk : Stops lengthens k) :
    number? (n ++ k) = some (n, k) := by
  obtain ⟨sign, whole, fraction, exponent, rfl, hsign, hwhole, hfraction, hexponent⟩ := h
  have hdigit : Stops Char.isDigit k := hk.imp (by simp +contextual [lengthens])
  have hpoint : Stops (· == '.') k := hk.imp (by simp +contextual [lengthens])
  have hmark : Stops (fun c => c == 'e' || c == 'E') k := hk.imp (by simp +contextual [lengthens])
  have hread₁ := wholePart?_append hwhole
    (hfraction.stops (by decide) (hexponent.stops (by decide) hdigit))
  have hread₂ := fraction?_append hfraction (hexponent.stops (by decide) hdigit)
    (hexponent.stops (by decide) hpoint)
  have hread₃ := exponent?_append hexponent hdigit hmark
  obtain ⟨c, r, rfl, hc⟩ := hwhole.head
  have hminus : c ≠ '-' := ne_of_isDigit hc rfl
  rw [List.cons_append] at hread₁
  simp only [List.mem_cons, List.not_mem_nil, or_false] at hsign
  rcases hsign with rfl | rfl
  · simp [number?, hminus, hread₁, hread₂, hread₃]
  · simp [number?, hread₁, hread₂, hread₃]

end Numbers

/-! ### Strings -/

/-- The spelling of parts of a string. -/
inductive SpellsParts : Text → List Part → Prop
  | nil : SpellsParts [] []
  | unit {a b c d : Char} {n : Nat} {s : Text} {ps : List Part}
      (hn : Text.digits? 16 [a, b, c, d] = some n) (h : SpellsParts s ps) :
      SpellsParts ('\\' :: 'u' :: a :: b :: c :: d :: s) (.unit n :: ps)
  | escape {e c : Char} {s : Text} {ps : List Part} (hc : escaped? e = some c)
      (h : SpellsParts s ps) : SpellsParts ('\\' :: e :: s) (.char c :: ps)
  | plain {c : Char} {s : Text} {ps : List Part} (hc : 0x20 ≤ c.toNat ∧ c ≠ '"' ∧ c ≠ '\\')
      (h : SpellsParts s ps) : SpellsParts (c :: s) (.char c :: ps)

def IsString (s t : Text) : Prop :=
  ∃ body ps, s = '"' :: body ++ ['"'] ∧ SpellsParts body ps ∧ t = textOf ps

section Strings

variable {s k t : Text} {ps : List Part}

theorem parts?_eq_some (h : parts? s = some (ps, k)) :
    ∃ body, s = body ++ '"' :: k ∧ SpellsParts body ps := by
  fun_induction parts? s generalizing ps with
  | case1 => cases h
  | case2 r =>
    cases h
    exact ⟨[], rfl, .nil⟩
  | case3 a b c d r ih =>
    simp only [Option.bind_eq_bind, Option.bind_eq_some_iff] at h
    obtain ⟨n, hn, ⟨ps', k'⟩, hrest, heq⟩ := h
    cases heq
    obtain ⟨body, rfl, hbody⟩ := ih hrest
    exact ⟨_, rfl, .unit hn hbody⟩
  | case4 e r hu ih =>
    simp only [Option.bind_eq_bind, Option.bind_eq_some_iff] at h
    obtain ⟨c, hc, ⟨ps', k'⟩, hrest, heq⟩ := h
    cases heq
    obtain ⟨body, rfl, hbody⟩ := ih hrest
    exact ⟨_, rfl, .escape hc hbody⟩
  | case5 c r hquote hu hescape hc => cases h
  | case6 c r hquote hu hescape hc ih =>
    obtain ⟨⟨ps', k'⟩, hrest, heq⟩ := Option.map_eq_some_iff.mp h
    cases heq
    obtain ⟨body, rfl, hbody⟩ := ih hrest
    obtain ⟨hlow, hslash⟩ : ¬c.toNat < 0x20 ∧ c ≠ '\\' := by simpa using hc
    exact ⟨_, rfl, .plain ⟨by omega, hquote, hslash⟩ hbody⟩

theorem parts?_append (h : SpellsParts s ps) (k : Text) :
    parts? (s ++ '"' :: k) = some (ps, k) := by
  induction h with
  | nil => rfl
  | unit hn h ih =>
    simp only [List.cons_append, parts?, hn, ih, Option.bind_eq_bind, Option.bind_some]
  | @escape e c s ps hc h ih =>
    have hu : e ≠ 'u' := by
      intro he
      rw [he] at hc
      cases hc
    simp [parts?, hu, hc, ih]
  | plain hc h ih => simp [parts?, hc, ih]

theorem string?_eq_some (h : string? s = some (t, k)) : ∃ q, '"' :: s = q ++ k ∧ IsString q t := by
  obtain ⟨⟨ps, k'⟩, hparts, heq⟩ := Option.map_eq_some_iff.mp h
  cases heq
  obtain ⟨body, rfl, hbody⟩ := parts?_eq_some hparts
  exact ⟨'"' :: body ++ ['"'], by simp, body, ps, rfl, hbody, rfl⟩

theorem IsString.string?_append (h : IsString s t) (k : Text) :
    ∃ r, s ++ k = '"' :: r ∧ string? r = some (t, k) := by
  obtain ⟨body, ps, rfl, hbody, rfl⟩ := h
  refine ⟨body ++ '"' :: k, by simp, ?_⟩
  rw [string?, parts?_append hbody]
  rfl

end Strings

/-! ### Values -/

def IsSpace (s : Text) : Prop := ∀ c ∈ s, isSpace c = true

def IsName (s name : Text) : Prop :=
  ∃ w q w', s = w ++ q ++ w' ∧ IsSpace w ∧ IsString q name ∧ IsSpace w'

/-- What a text can spell: a value, one with white space around it, and what stands between the
brackets of an array and of an object. -/
inductive Piece where
  | value (v : JsonValue)
  | spaced (v : JsonValue)
  | items (vs : List JsonValue)
  | members (ms : List (Text × JsonValue))

inductive Spells : Text → Piece → Prop
  | null : Spells "null".toList (.value .null)
  | boolTrue : Spells "true".toList (.value (.bool true))
  | boolFalse : Spells "false".toList (.value (.bool false))
  | number {s : Text} (h : IsNumber s) : Spells s (.value (.number s))
  | string {s t : Text} (h : IsString s t) : Spells s (.value (.string t))
  | noItems {w : Text} (hw : IsSpace w) : Spells ('[' :: w ++ [']']) (.value (.array []))
  | array {s : Text} {vs : List JsonValue} (h : Spells s (.items vs)) :
      Spells ('[' :: s ++ [']']) (.value (.array vs))
  | noMembers {w : Text} (hw : IsSpace w) : Spells ('\x7b' :: w ++ ['\x7d']) (.value (.object []))
  | object {s : Text} {ms : List (Text × JsonValue)} (h : Spells s (.members ms)) :
      Spells ('\x7b' :: s ++ ['\x7d']) (.value (.object ms))
  | spaced {w s w' : Text} {v : JsonValue} (hw : IsSpace w) (h : Spells s (.value v))
      (hw' : IsSpace w') : Spells (w ++ s ++ w') (.spaced v)
  | item {s : Text} {v : JsonValue} (h : Spells s (.spaced v)) : Spells s (.items [v])
  | moreItems {s rest : Text} {v : JsonValue} {vs : List JsonValue} (h : Spells s (.spaced v))
      (hrest : Spells rest (.items vs)) : Spells (s ++ ',' :: rest) (.items (v :: vs))
  | member {n s name : Text} {v : JsonValue} (hname : IsName n name) (h : Spells s (.spaced v)) :
      Spells (n ++ ':' :: s) (.members [(name, v)])
  | moreMembers {n s rest name : Text} {v : JsonValue} {ms : List (Text × JsonValue)}
      (hname : IsName n name) (h : Spells s (.spaced v)) (hrest : Spells rest (.members ms)) :
      Spells (n ++ ':' :: s ++ ',' :: rest) (.members ((name, v) :: ms))

theorem Spells.exists_value {s : Text} {v : JsonValue} (h : Spells s (.spaced v)) :
    ∃ w b w', s = w ++ b ++ w' ∧ IsSpace w ∧ Spells b (.value v) ∧ IsSpace w' := by
  cases h with
  | @spaced w b w' v hw h hw' => exact ⟨w, b, w', rfl, hw, h, hw'⟩

end AbsoluteImports.JsonValue
