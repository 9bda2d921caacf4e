import AbsoluteImports.Config.Load
import AbsoluteImports.Proofs.Text.JsonReading
import AbsoluteImports.Proofs.Text.Lenient

/-!
# Settings at the front of a file

Settings in JSON are accepted when the content begins with a value that holds settings: an object
with known fields only, each with a value that the field takes. What stands behind the value is not
looked at. `json_front` says this for every content, and when the whole content is one value.
-/

namespace AbsoluteImports.Config

open JsonValue (Spells IsSpace Ends)

/-! ### Values that hold settings -/

def IsItem (v : JsonValue) : Prop := v = .null ∨ ∃ t, v = .string t

/-- The values that a field takes. -/
def Field.Takes : Field → JsonValue → Prop
  | .directories, v | .exclude, v => v = .null ∨ ∃ vs, v = .array vs ∧ ∀ x ∈ vs, IsItem x
  | .workers, v => v = .null ∨ ∃ s n, v = .number s ∧ plainInt? s = some n ∧ inRange n = true
  | .dryRun, v => v = .null ∨ ∃ b, v = .bool b

/-- The name is that of a field, and the field takes the value. -/
def Known (name : Text) (v : JsonValue) : Prop :=
  ∃ field, Field.ofName? (name.map foldChar) = some field ∧ field.Takes v

def HoldsSettings (v : JsonValue) : Prop :=
  v = .null ∨ ∃ ms, v = .object ms ∧ ∀ m ∈ ms, Known m.1 m.2

theorem fillSlots_isSome (slots : List Text) (vs : List JsonValue) :
    (fillSlots slots vs).isSome = true ↔ ∀ x ∈ vs, IsItem x := by
  induction vs generalizing slots with
  | nil => simp [fillSlots]
  | cons v vs ih =>
    rw [List.forall_mem_cons]
    cases v with
    | null => simp [fillSlots, ih, IsItem]
    | string t => simp [fillSlots, ih, IsItem]
    | bool b => simp [fillSlots, IsItem]
    | number s => simp [fillSlots, IsItem]
    | array items => simp [fillSlots, IsItem]
    | object ms => simp [fillSlots, IsItem]

theorem Slots.read?_isSome (s : Slots) (v : JsonValue) :
    (s.read? v).isSome = true ↔ v = .null ∨ ∃ vs, v = .array vs ∧ ∀ x ∈ vs, IsItem x := by
  cases v with
  | array items =>
    cases items with
    | nil => simp [Slots.read?]
    | cons x xs => simp [Slots.read?, fillSlots_isSome]
  | null => simp [Slots.read?]
  | bool b => simp [Slots.read?]
  | number s => simp [Slots.read?]
  | string t => simp [Slots.read?]
  | object ms => simp [Slots.read?]

theorem isSome_bind_some {α β : Type} (o : Option α) (g : α → β) :
    (o.bind fun a => some (g a)).isSome = o.isSome := by
  cases o with
  | none => rfl
  | some a => rfl

theorem JsonFields.member?_isSome (f : JsonFields) (name : Text) (v : JsonValue) :
    (f.member? name v).isSome = true ↔ Known name v := by
  unfold JsonFields.member? Known
  cases hfield : Field.ofName? (name.map foldChar) with
  | none => simp
  | some field =>
    cases field with
    | directories => simp [Field.Takes, isSome_bind_some, Slots.read?_isSome]
    | exclude => simp [Field.Takes, isSome_bind_some, Slots.read?_isSome]
    | workers =>
      cases v with
      | number s =>
        cases hn : plainInt? s with
        | none => simp [Field.Takes, hn]
        | some n => simp [Field.Takes, hn]
      | null => simp [Field.Takes]
      | bool b => simp [Field.Takes]
      | string t => simp [Field.Takes]
      | array items => simp [Field.Takes]
      | object ms => simp [Field.Takes]
    | dryRun =>
      cases v with
      | bool b => simp [Field.Takes]
      | null => simp [Field.Takes]
      | number s => simp [Field.Takes]
      | string t => simp [Field.Takes]
      | array items => simp [Field.Takes]
      | object ms => simp [Field.Takes]

theorem foldlM_isSome {α β : Type} {step : α → β → Option α} {P : β → Prop}
    (h : ∀ a x, (step a x).isSome = true ↔ P x) (xs : List β) (a : α) :
    (xs.foldlM step a).isSome = true ↔ ∀ x ∈ xs, P x := by
  induction xs generalizing a with
  | nil => simp
  | cons x xs ih =>
    rw [List.forall_mem_cons, List.foldlM_cons, ← h a x]
    cases hstep : step a x with
    | none => simp
    | some b => simp [ih b]

theorem ofJson?_isSome (v : JsonValue) : (ofJson? v).isSome = true ↔ HoldsSettings v := by
  cases v with
  | object ms =>
    have hmember : ∀ (f : JsonFields) (m : Text × JsonValue),
        (f.member? m.1 m.2).isSome = true ↔ Known m.1 m.2 := fun f m => f.member?_isSome m.1 m.2
    have hfold := foldlM_isSome hmember ms ⟨.none, .none, 0, false⟩
    simpa [ofJson?, HoldsSettings, isSome_bind_some] using hfold
  | null => simp [ofJson?, HoldsSettings]
  | bool b => simp [ofJson?, HoldsSettings]
  | number s => simp [ofJson?, HoldsSettings]
  | string t => simp [ofJson?, HoldsSettings]
  | array items => simp [ofJson?, HoldsSettings]

theorem HoldsSettings.ends {v : JsonValue} (h : HoldsSettings v) (k : Text) : Ends v k := by
  rcases h with rfl | ⟨ms, rfl, -⟩
  · trivial
  · trivial

/-! ### Values at the front -/

/-- The bytes are one JSON value, with nothing but white space around it. -/
def IsJson (bs : Bytes) (v : JsonValue) : Prop := Spells (Utf8.decodeLenient bs) (.spaced v)

variable {content front rest : Bytes} {v : JsonValue} {k : Text}

theorem HoldsSettings.getLast? {s : Text} (hv : HoldsSettings v) (h : Spells s (.value v)) :
    ∃ c, s.getLast? = some c ∧ c.toNat < 0x80 := by
  rcases hv with rfl | ⟨ms, rfl, -⟩
  · cases h with
    | null => exact ⟨'l', rfl, by decide⟩
  · cases h with
    | noMembers hw => exact ⟨'\x7d', List.getLast?_concat, by decide⟩
    | object h => exact ⟨'\x7d', List.getLast?_concat, by decide⟩

theorem IsJson.closed (h : IsJson front v) (hv : HoldsSettings v) : Utf8.Closed front := by
  obtain ⟨w, b, w', hs, -, hb, hw'⟩ := h.exists_value
  obtain ⟨c, hc, hlow⟩ := hv.getLast? hb
  rcases List.eq_nil_or_concat w' with rfl | ⟨w'', d, rfl⟩
  · refine Utf8.closed_of_decodeLenient hlow ?_
    rw [hs, List.append_nil, List.getLast?_append, hc]
    rfl
  · refine Utf8.closed_of_decodeLenient (JsonValue.plain_of_isSpace (hw' d (by simp))).2 ?_
    rw [hs, List.concat_eq_append, ← List.append_assoc, List.getLast?_concat]

/-- Behind a value that holds settings anything can stand. -/
theorem IsJson.read? (h : IsJson front v) (hv : HoldsSettings v) (rest : Bytes) :
    ∃ w, IsSpace w ∧
      JsonValue.read? (Utf8.decodeLenient (front ++ rest)) =
        some (v, w ++ Utf8.decodeLenient rest) := by
  obtain ⟨w, b, w', hs, hw, hb, hw'⟩ := h.exists_value
  refine ⟨w', hw', ?_⟩
  rw [(h.closed hv).decodeLenient_append, hs, List.append_assoc]
  exact JsonValue.read?_append hw hb (hv.ends _)

theorem exists_isJson (h : JsonValue.read? (Utf8.decodeLenient content) = some (v, k)) :
    ∃ front rest, content = front ++ rest ∧ IsJson front v := by
  obtain ⟨w, b, hs, hw, hb⟩ := JsonValue.read?_eq_some h
  obtain ⟨front, rest, rfl, hfront, -⟩ := Utf8.exists_decodeLenient hs
  refine ⟨front, rest, rfl, ?_⟩
  rw [IsJson, hfront, ← List.append_nil (w ++ b)]
  exact .spaced hw hb nofun

theorem readJson?_eq_some {cfg : Config} : readJson? content = some cfg ↔
    ∃ front rest v, content = front ++ rest ∧ IsJson front v ∧ HoldsSettings v ∧
      ofJson? v = some cfg := by
  constructor
  · intro h
    unfold readJson? at h
    split at h
    · rename_i v k hread
      obtain ⟨front, rest, hcontent, hfront⟩ := exists_isJson hread
      refine ⟨front, rest, v, hcontent, hfront, ?_, h⟩
      exact (ofJson?_isSome v).mp (by rw [h]; rfl)
    · cases h
  · intro h
    obtain ⟨front, rest, v, rfl, hfront, hv, hcfg⟩ := h
    obtain ⟨w, -, hread⟩ := hfront.read? hv rest
    rw [readJson?, hread]
    exact hcfg

theorem exists_isJson_iff : (∃ v, IsJson content v) ↔
    ((JsonValue.read? (Utf8.decodeLenient content)).any fun x => x.2.all JsonValue.isSpace) =
      true := by
  simp only [IsJson, JsonValue.spells_spaced_iff, Option.any_eq_true, List.all_eq_true]
  constructor
  · intro h
    obtain ⟨v, w, hread, hw⟩ := h
    exact ⟨_, hread, hw⟩
  · intro h
    obtain ⟨⟨v, w⟩, hread, hw⟩ := h
    exact ⟨v, w, hread, hw⟩

theorem IsJson.whole_iff (h : IsJson front v) (hv : HoldsSettings v) (rest : Bytes) :
    (∃ v', IsJson (front ++ rest) v') ↔ IsSpace (Utf8.decodeLenient rest) := by
  obtain ⟨w, hw, hread⟩ := h.read? hv rest
  rw [exists_isJson_iff, hread, Option.any_some, List.all_eq_true]
  constructor
  · intro hall c hc
    exact hall c (List.mem_append_right w hc)
  · intro hrest
    exact hw.append hrest

theorem ofContent_json (env : Environment) (content : Bytes) :
    ofContent env ".json".toList content =
      match readJson? content with
      | some cfg => .ok cfg
      | none => .error .json := rfl

/-- Which contents are accepted as settings in JSON, for every content. Those that begin with a
value that holds settings, whatever stands behind it; any other is refused as no JSON. An accepted
content is one value as a whole exactly when nothing but white space follows the value. -/
theorem json_front (content : Bytes) (env : Environment) :
    (∀ cfg, ofContent env ".json".toList content = .ok cfg ↔
      ∃ front rest v, content = front ++ rest ∧ IsJson front v ∧ HoldsSettings v ∧
        ofJson? v = some cfg) ∧
    (ofContent env ".json".toList content = .error .json ↔
      ∀ front rest v, content = front ++ rest → IsJson front v → ¬HoldsSettings v) ∧
    ∀ front rest v, content = front ++ rest → IsJson front v → HoldsSettings v →
      ((∃ v', IsJson content v') ↔ IsSpace (Utf8.decodeLenient rest)) := by
  refine ⟨?_, ?_, ?_⟩
  · intro cfg
    rw [← readJson?_eq_some, ofContent_json]
    cases readJson? content with
    | none => simp
    | some found => simp
  · rw [ofContent_json]
    constructor
    · intro herror front rest v hcontent hfront hv
      obtain ⟨cfg, hcfg⟩ := Option.isSome_iff_exists.mp ((ofJson?_isSome v).mpr hv)
      rw [readJson?_eq_some.mpr ⟨front, rest, v, hcontent, hfront, hv, hcfg⟩] at herror
      cases herror
    · intro hnone
      cases hread : readJson? content with
      | none => rfl
      | some cfg =>
        obtain ⟨front, rest, v, hcontent, hfront, hv, -⟩ := readJson?_eq_some.mp hread
        exact absurd hv (hnone front rest v hcontent hfront)
  · intro front rest v hcontent hfront hv
    rw [hcontent]
    exact hfront.whole_iff hv rest

/-- Settings with white space around them, a name in other letters and a missing item. -/
def spacedSettings : Bytes :=
  Utf8.encode " \x7b\"Workers\" : 2, \"exclude\": [\"t.py\", null]\x7d\n".toList

theorem json_front_spaced :
    ∃ front rest v, spacedSettings = front ++ rest ∧ IsJson front v ∧ HoldsSettings v ∧
      ofJson? v = some ⟨[], ["t.py".toList, []], 2, false, []⟩ ∧
      IsSpace (Utf8.decodeLenient rest) := by
  have hread : readJson? spacedSettings = some ⟨[], ["t.py".toList, []], 2, false, []⟩ := by
    decide +kernel
  have hok : ofContent [] ".json".toList spacedSettings =
      .ok ⟨[], ["t.py".toList, []], 2, false, []⟩ := by rw [ofContent_json, hread]
  have hwhole : ∃ v, IsJson spacedSettings v := exists_isJson_iff.mpr (by decide +kernel)
  obtain ⟨haccepted, -, hspace⟩ := json_front spacedSettings []
  obtain ⟨front, rest, v, hcontent, hfront, hv, hcfg⟩ := (haccepted _).mp hok
  exact ⟨front, rest, v, hcontent, hfront, hv, hcfg,
    (hspace front rest v hcontent hfront hv).mp hwhole⟩

/-- Contents that are accepted and are not one value: a second object stands behind the first, with
a name that no field has, and other text stands behind an object and behind `null`. -/
theorem json_front_ignored :
    Field.ofName? ("worker".toList.map foldChar) = none ∧
    ∀ case ∈ [("\x7b\"workers\": 2\x7d \x7b\"worker\": 1\x7d".toList, 2),
        ("\x7b\x7d x".toList, 0), ("null]".toList, 0)],
      ofContent [] ".json".toList (Utf8.encode case.1) = .ok { empty with workers := case.2 } ∧
      ¬∃ v, IsJson (Utf8.encode case.1) v := by
  have hread : ∀ case ∈ [("\x7b\"workers\": 2\x7d \x7b\"worker\": 1\x7d".toList, 2),
      ("\x7b\x7d x".toList, 0), ("null]".toList, 0)],
      readJson? (Utf8.encode case.1) = some { empty with workers := case.2 } ∧
      ((JsonValue.read? (Utf8.decodeLenient (Utf8.encode case.1))).any fun x =>
        x.2.all JsonValue.isSpace) = false := by decide +kernel
  refine ⟨by decide, fun case hcase => ?_⟩
  obtain ⟨hcfg, hleft⟩ := hread case hcase
  refine ⟨by rw [ofContent_json, hcfg], ?_⟩
  rw [exists_isJson_iff, hleft]
  exact Bool.false_ne_true

end AbsoluteImports.Config
