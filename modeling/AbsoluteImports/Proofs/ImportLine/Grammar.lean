import AbsoluteImports.ImportLine
import AbsoluteImports.Proofs.Text.Blank

/-!
# The grammar of relative import lines

`Grammar` says which lines are relative imports and what their parts are, without a reading
order. `parse?_exact` shows that reading a line finds exactly the parts that the grammar
allows, so that a line has at most one reading.
-/

namespace AbsoluteImports.ImportLine

/-! ### The grammar -/

/-- A dotted name, or nothing. -/
def IsModule (m : Text) : Prop :=
  m = [] ∨ ∃ c r, m = c :: r ∧ isNameStart c = true ∧ ∀ d ∈ r, isNameRest d = true

/-- The imported names: no hash, and no white space around them. -/
def IsPayload (s : Text) : Prop :=
  s ≠ [] ∧ '#' ∉ s ∧ Text.Stops Text.isBlank s ∧ Text.Tight s

def IsComment (s : Text) : Prop := ∃ w r, s = w ++ '#' :: r ∧ Text.allBlank w = true

/-- A line is a relative import with the given parts. -/
structure Grammar (line : Text) (v : ImportLine) : Prop where
  noBackslash : '\\' ∉ line
  noOpenList : ¬"import (".toList <:+: line
  /-- No open parenthesis with nothing but white space behind it. -/
  notOpenAtEnd : ∀ before after, line = before ++ '(' :: after → Text.allBlank after = false
  parts : ∃ blanks gap rest,
    line = v.indent ++ "from ".toList ++ List.replicate v.dots '.' ++ v.module ++ blanks ++
      "import".toList ++ gap ++ v.imported ++ v.comment ++ rest ∧
    Text.allBlank v.indent = true ∧ 0 < v.dots ∧ IsModule v.module ∧
    (blanks ≠ [] ∧ Text.allBlank blanks = true) ∧ (gap ≠ [] ∧ Text.allBlank gap = true) ∧
    IsPayload v.imported ∧
    ((v.comment = [] ∧ Text.allBlank rest = true) ∨ (IsComment v.comment ∧ rest = []))

/-! ### Kinds of characters -/

theorem toNat_of_isBlank {c : Char} (h : Text.isBlank c = true) :
    c.toNat ≤ 32 ∨ 133 ≤ c.toNat := by
  simp only [Text.isBlank, Bool.or_eq_true, Bool.and_eq_true, decide_eq_true_eq, beq_iff_eq] at h
  omega

theorem toNat_of_isNameRest {c : Char} (h : isNameRest c = true) :
    46 ≤ c.toNat ∧ c.toNat ≤ 122 := by
  unfold isNameRest Char.isAlphanum Char.isAlpha Char.isUpper Char.isLower at h
  simp only [Char.isDigit, Bool.or_eq_true, Bool.and_eq_true, decide_eq_true_eq, beq_iff_eq,
    ge_iff_le, UInt32.le_iff_toNat_le, Char.toNat_val] at h
  rcases h with (((h | h) | h) | h) | h
  · have h1 : 'A'.toNat = 65 := rfl
    have h2 : 'Z'.toNat = 90 := rfl
    omega
  · have h1 : 'a'.toNat = 97 := rfl
    have h2 : 'z'.toNat = 122 := rfl
    omega
  · have h1 : '0'.toNat = 48 := rfl
    have h2 : '9'.toNat = 57 := rfl
    omega
  · subst h
    decide
  · subst h
    decide

theorem isNameRest_of_isNameStart {c : Char} (h : isNameStart c = true) :
    isNameRest c = true := by
  simp only [isNameStart, isNameRest, Char.isAlphanum, Bool.or_eq_true] at h ⊢
  rcases h with h | h
  · exact .inl (.inl (.inl h))
  · exact .inl (.inr h)

theorem IsModule.isNameRest {m : Text} (hm : IsModule m) : ∀ c ∈ m, isNameRest c = true := by
  rcases hm with rfl | ⟨c, r, rfl, hc, hr⟩
  · exact fun c hc => absurd hc List.not_mem_nil
  · intro d hd
    rcases List.mem_cons.mp hd with rfl | hd
    · exact isNameRest_of_isNameStart hc
    · exact hr d hd

theorem isNameRest_of_isBlank {c : Char} (h : Text.isBlank c = true) :
    isNameRest c = false := by
  refine Bool.eq_false_iff.mpr fun hn => ?_
  have hb := toNat_of_isBlank h
  have hr := toNat_of_isNameRest hn
  omega

theorem isDot_of_isBlank {c : Char} (h : Text.isBlank c = true) : (c == '.') = false := by
  refine beq_eq_false_iff_ne.mpr fun hc => ?_
  rw [hc] at h
  cases h

theorem isDot_of_isNameStart {c : Char} (h : isNameStart c = true) : (c == '.') = false := by
  refine beq_eq_false_iff_ne.mpr fun hc => ?_
  rw [hc] at h
  cases h

/-! ### The stages of reading -/

theorem spansLines_eq_false_iff {line : Text} :
    spansLines line = false ↔ '\\' ∉ line ∧ ¬"import (".toList <:+: line ∧
      ∀ before after, line = before ++ '(' :: after → Text.allBlank after = false := by
  have hend := Text.endsWith_trimRight_iff (c := '(') (by decide) (s := line)
  simp only [spansLines, Bool.or_eq_false_iff, List.contains_eq_mem, decide_eq_false_iff_not,
    and_assoc]
  refine and_congr_right fun _ => and_congr ?_ ?_
  · rw [← Bool.not_eq_true, Text.holds_iff]
  · rw [← Bool.not_eq_true, hend]
    constructor
    · intro h before after he
      exact Bool.eq_false_iff.mpr fun ha => h ⟨before, after, he, ha⟩
    · rintro h ⟨before, after, he, ha⟩
      rw [h before after he] at ha
      cases ha

theorem skipBlanks?_eq_some {s r : Text} :
    skipBlanks? s = some r ↔ ∃ w, s = w ++ r ∧ w ≠ [] ∧ Text.allBlank w = true ∧
      Text.Stops Text.isBlank r := by
  cases s with
  | nil => simp [skipBlanks?]
  | cons c t =>
    rw [skipBlanks?]
    constructor
    · intro h
      split at h
      · rename_i hc
        cases h
        refine ⟨c :: t.takeWhile Text.isBlank, ?_, by simp, ?_, Text.stops_dropWhile t⟩
        · rw [List.cons_append, List.takeWhile_append_dropWhile]
        · simp only [Text.allBlank, List.all_cons, hc, Bool.true_and]
          exact List.all_takeWhile
      · cases h
    · rintro ⟨w, hs, hne, hw, hr⟩
      obtain ⟨d, w, rfl⟩ := List.exists_cons_of_ne_nil hne
      rw [List.cons_append, List.cons.injEq] at hs
      obtain ⟨rfl, rfl⟩ := hs
      have hall := Text.allBlank_iff.mp hw
      rw [if_pos (hall c (List.mem_cons_self ..)),
        Text.dropWhile_append_stops (fun x hx => hall x (List.mem_cons_of_mem _ hx)) hr]

theorem takeModule_append {m s : Text} (hm : IsModule m) (hs : Text.Stops isNameRest s) :
    takeModule (m ++ s) = (m, s) := by
  rcases hm with rfl | ⟨c, r, rfl, hc, hr⟩
  · cases s with
    | nil => rfl
    | cons d t =>
      have hd : isNameStart d = false := by
        refine Bool.eq_false_iff.mpr fun hd => ?_
        have hrest := Text.stops_cons.mp hs
        rw [isNameRest_of_isNameStart hd] at hrest
        cases hrest
      simp [takeModule, hd]
  · simp only [List.cons_append, takeModule, hc, ↓reduceIte,
      Text.takeWhile_append_stops hr hs, Text.dropWhile_append_stops hr hs]

theorem takeModule_spec (s : Text) :
    s = (takeModule s).1 ++ (takeModule s).2 ∧ IsModule (takeModule s).1 := by
  cases s with
  | nil => exact ⟨rfl, .inl rfl⟩
  | cons c r =>
    rw [takeModule]
    split
    · rename_i hc
      refine ⟨?_, .inr ⟨c, _, rfl, hc, fun d hd => Text.of_mem_takeWhile hd⟩⟩
      rw [List.cons_append, List.takeWhile_append_dropWhile]
    · exact ⟨rfl, .inl rfl⟩

/-! ### Imported names and comment -/

theorem isComment_cons {c : Char} {s : Text} :
    IsComment (c :: s) ↔ c = '#' ∨ (Text.isBlank c = true ∧ IsComment s) := by
  constructor
  · rintro ⟨w, r, hs, hw⟩
    cases w with
    | nil => exact .inl (List.cons.inj hs).1
    | cons d w =>
      obtain ⟨rfl, rfl⟩ := List.cons.inj hs
      have hall := Text.allBlank_iff.mp hw
      refine .inr ⟨hall c (List.mem_cons_self ..), w, r, rfl, ?_⟩
      exact Text.allBlank_iff.mpr fun x hx => hall x (List.mem_cons_of_mem _ hx)
  · rintro (rfl | ⟨hc, w, r, rfl, hw⟩)
    · exact ⟨[], s, rfl, rfl⟩
    · refine ⟨c :: w, r, rfl, ?_⟩
      simp only [Text.allBlank, List.all_cons, hc, Bool.true_and]
      exact hw

theorem not_isComment_append {n s : Text} (hne : n ≠ []) (hhash : '#' ∉ n)
    (htight : Text.Tight n) : ¬IsComment (n ++ s) := by
  induction n with
  | nil => exact absurd rfl hne
  | cons c n ih =>
    rw [List.mem_cons, not_or] at hhash
    rw [List.cons_append, isComment_cons]
    rintro (hc | ⟨hc, hcomment⟩)
    · exact hhash.1 hc.symm
    · by_cases hn : n = []
      · subst hn
        rw [Text.tight_singleton.mp htight] at hc
        cases hc
      · exact ih hn hhash.2 ((Text.tight_cons hn).mp htight) hcomment

theorem comment?_eq_some {s k : Text} (h : '\n' ∉ s) :
    comment? s = some k ↔ IsComment s ∧ k = s := by
  have hsplit : s.takeWhile Text.isBlank ++ s.dropWhile Text.isBlank = s :=
    List.takeWhile_append_dropWhile
  have hline : ∀ r : Text, '\n' ∉ r →
      r.takeWhile (· != '\n') = r ∧ r.dropWhile (· != '\n') = [] := by
    intro r hr
    have hall : ∀ c ∈ r, (c != '\n') = true := by
      intro c hc
      exact bne_iff_ne.mpr fun he => hr (he ▸ hc)
    have h1 := Text.takeWhile_append_stops hall Text.stops_nil
    have h2 := Text.dropWhile_append_stops hall Text.stops_nil
    rw [List.append_nil] at h1 h2
    exact ⟨h1, h2⟩
  constructor
  · intro hk
    rw [comment?] at hk
    split at hk
    · rename_i r hd
      rw [hd] at hsplit
      have hr : '\n' ∉ r := fun hr => h (by rw [← hsplit]; simp [hr])
      rw [(hline r hr).1, (hline r hr).2] at hk
      simp only [Text.allBlank, List.all_nil, ↓reduceIte, Option.some.injEq] at hk
      exact ⟨⟨_, r, hsplit.symm, List.all_takeWhile⟩, by rw [← hk, hsplit]⟩
    · cases hk
  · rintro ⟨⟨w, r, rfl, hw⟩, rfl⟩
    have hall := Text.allBlank_iff.mp hw
    have hstop : Text.Stops Text.isBlank ('#' :: r) := Text.stops_cons.mpr (by decide)
    have hr : '\n' ∉ r := fun hr => h (by simp [hr])
    rw [comment?, Text.dropWhile_append_stops hall hstop, Text.takeWhile_append_stops hall hstop]
    simp only [hline r hr, Text.allBlank, List.all_nil, ↓reduceIte]

/-- A text cut into names and a comment, with white space behind when there is none. -/
def Cuts (s names comment : Text) : Prop :=
  '#' ∉ names ∧ Text.Tight names ∧ ∃ rest, s = names ++ comment ++ rest ∧
    ((comment = [] ∧ Text.allBlank rest = true) ∨ (IsComment comment ∧ rest = []))

theorem Cuts.cons {c : Char} {s names comment : Text} (h : Cuts s names comment)
    (hc : ¬IsComment (c :: s)) (hb : Text.allBlank (c :: s) = false) :
    Cuts (c :: s) (c :: names) comment := by
  obtain ⟨hhash, htight, rest, rfl, hrest⟩ := h
  rw [isComment_cons, not_or] at hc
  refine ⟨by simp [hhash, Ne.symm hc.1], ?_, rest, by simp, hrest⟩
  by_cases hn : names = []
  · subst hn
    rw [Text.tight_singleton]
    -- white space here would belong to the comment or to the end of the line
    refine Bool.eq_false_iff.mpr fun hblank => ?_
    rcases hrest with ⟨rfl, hr⟩ | ⟨hcom, rfl⟩
    · simp only [Text.allBlank, List.nil_append, List.all_cons, hblank, Bool.true_and] at hb
      simp only [Text.allBlank, hb] at hr
      cases hr
    · exact hc.2 ⟨hblank, by simpa using hcom⟩
  · exact (Text.tight_cons hn).mpr htight

theorem cuts_nil {names comment : Text} : Cuts [] names comment ↔ names = [] ∧ comment = [] := by
  constructor
  · rintro ⟨-, -, rest, hs, -⟩
    have hnil := List.append_eq_nil_iff.mp hs.symm
    exact List.append_eq_nil_iff.mp hnil.1
  · rintro ⟨rfl, rfl⟩
    exact ⟨List.not_mem_nil, Text.tight_nil, [], rfl, .inl ⟨rfl, rfl⟩⟩

theorem cuts_of_isComment {s names comment : Text} (h : IsComment s) :
    Cuts s names comment ↔ names = [] ∧ comment = s := by
  constructor
  · rintro ⟨hhash, htight, rest, rfl, hrest⟩
    have hnil : names = [] := by
      refine Classical.byContradiction fun hne => ?_
      rw [List.append_assoc] at h
      exact not_isComment_append hne hhash htight h
    subst hnil
    refine ⟨rfl, ?_⟩
    rcases hrest with ⟨rfl, hr⟩ | ⟨-, rfl⟩
    · obtain ⟨w, r, he, -⟩ := h
      rw [List.nil_append, List.nil_append] at he
      have hb := (Text.allBlank_iff.mp hr) '#' (by simp [he])
      cases hb
    · rw [List.nil_append, List.append_nil]
  · rintro ⟨rfl, rfl⟩
    exact ⟨List.not_mem_nil, Text.tight_nil, [], by simp, .inr ⟨h, rfl⟩⟩

theorem cuts_of_allBlank {s names comment : Text} (h : Text.allBlank s = true) :
    Cuts s names comment ↔ names = [] ∧ comment = [] := by
  constructor
  · rintro ⟨hhash, htight, rest, rfl, hrest⟩
    rw [Text.allBlank_append, Text.allBlank_append] at h
    refine ⟨Classical.byContradiction fun hne => ?_, ?_⟩
    · rw [htight.not_allBlank hne] at h
      cases h.1.1
    · rcases hrest with ⟨hc, -⟩ | ⟨⟨w, r, rfl, -⟩, -⟩
      · exact hc
      · have hb := (Text.allBlank_iff.mp h.1.2) '#' (by simp)
        cases hb
  · rintro ⟨rfl, rfl⟩
    exact ⟨List.not_mem_nil, Text.tight_nil, s, rfl, .inl ⟨rfl, h⟩⟩

theorem cuts_cons {c : Char} {s names comment : Text} (hc : ¬IsComment (c :: s))
    (hb : Text.allBlank (c :: s) = false) :
    Cuts (c :: s) names comment ↔ ∃ n, names = c :: n ∧ Cuts s n comment := by
  constructor
  · rintro ⟨hhash, htight, rest, hs, hrest⟩
    cases names with
    | nil =>
      rw [List.nil_append] at hs
      rcases hrest with ⟨rfl, hr⟩ | ⟨hcom, rfl⟩
      · rw [hs, List.nil_append, hr] at hb
        cases hb
      · rw [hs, List.append_nil] at hc
        exact absurd hcom hc
    | cons d n =>
      rw [List.cons_append, List.cons_append, List.cons.injEq] at hs
      obtain ⟨rfl, rfl⟩ := hs
      refine ⟨n, rfl, fun hn => hhash (List.mem_cons_of_mem _ hn), ?_, rest, rfl, hrest⟩
      by_cases hn : n = []
      · subst hn
        exact Text.tight_nil
      · exact (Text.tight_cons hn).mp htight
  · rintro ⟨n, rfl, hcuts⟩
    exact hcuts.cons hc hb

theorem takeImported_cons (c : Char) (r : Text) :
    takeImported (c :: r) =
      match comment? (c :: r) with
      | some k => some ([], k)
      | none =>
        if Text.allBlank (c :: r) then some ([], [])
        else if c = '\n' then none
        else (takeImported r).map fun (w, k) => (c :: w, k) := by
  delta takeImported
  rfl

theorem takeImported_eq_some {s names comment : Text} (h : '\n' ∉ s) :
    takeImported s = some (names, comment) ↔ Cuts s names comment := by
  induction s generalizing names with
  | nil =>
    have hnil : takeImported [] = some ([], []) := by
      delta takeImported
      rfl
    rw [hnil, Option.some.injEq, Prod.mk.injEq, cuts_nil]
    exact and_congr eq_comm eq_comm
  | cons c r ih =>
    have hr : '\n' ∉ r := fun hr => h (List.mem_cons_of_mem _ hr)
    have hc : c ≠ '\n' := fun hc => h (by simp [hc])
    rw [takeImported_cons]
    by_cases hcom : IsComment (c :: r)
    · rw [(comment?_eq_some h).mpr ⟨hcom, rfl⟩, cuts_of_isComment hcom]
      simp only [Option.some.injEq, Prod.mk.injEq]
      exact and_congr eq_comm eq_comm
    · have hnone : comment? (c :: r) = none := by
        cases hk : comment? (c :: r) with
        | none => rfl
        | some k => exact absurd ((comment?_eq_some h).mp hk).1 hcom
      rw [hnone]
      by_cases hb : Text.allBlank (c :: r) = true
      · rw [cuts_of_allBlank hb]
        simp only [hb, ↓reduceIte, Option.some.injEq, Prod.mk.injEq]
        exact and_congr eq_comm eq_comm
      · have hbf : Text.allBlank (c :: r) = false := Bool.eq_false_iff.mpr hb
        rw [cuts_cons hcom hbf]
        simp only [hbf, Bool.false_eq_true, ↓reduceIte, hc, Option.map_eq_some_iff, Prod.exists,
          Prod.mk.injEq]
        constructor
        · rintro ⟨n, k, hn, rfl, rfl⟩
          exact ⟨n, rfl, (ih hr).mp hn⟩
        · rintro ⟨n, rfl, hn⟩
          exact ⟨n, comment, (ih hr).mpr hn, rfl, rfl⟩

/-! ### Reading a whole line -/

/-- What reading finds before the imported names, and the text behind it. -/
structure Opens (line : Text) (v : ImportLine) (tail : Text) : Prop where
  indent : Text.allBlank v.indent = true
  dots : 0 < v.dots
  module : IsModule v.module
  parts : ∃ blanks gap,
    line = v.indent ++ ("from ".toList ++ (List.replicate v.dots '.' ++ (v.module ++ (blanks ++
      ("import".toList ++ (gap ++ tail)))))) ∧
    (blanks ≠ [] ∧ Text.allBlank blanks = true) ∧ (gap ≠ [] ∧ Text.allBlank gap = true)
  tail : Text.Stops Text.isBlank tail

theorem stops_isNameRest {blanks : Text} (hne : blanks ≠ []) (hall : Text.allBlank blanks = true)
    (s : Text) : Text.Stops isNameRest (blanks ++ s) := by
  refine (Text.stops_append hne).mpr ?_
  exact Text.stops_of_all (fun _ => isNameRest_of_isBlank) (Text.allBlank_iff.mp hall)

theorem stops_isDot {m blanks : Text} (hm : IsModule m) (hne : blanks ≠ [])
    (hall : Text.allBlank blanks = true) (s : Text) :
    Text.Stops (· == '.') (m ++ (blanks ++ s)) := by
  rcases hm with rfl | ⟨c, r, rfl, hc, -⟩
  · refine (Text.stops_append hne).mpr ?_
    exact Text.stops_of_all (fun _ => isDot_of_isBlank) (Text.allBlank_iff.mp hall)
  · exact Text.stops_cons.mpr (isDot_of_isNameStart hc)

theorem opens_of_parse? {line : Text} {v : ImportLine} (h : parse? line = some v) :
    spansLines line = false ∧ ∃ tail names, Opens line v tail ∧
      takeImported tail = some (names, v.comment) ∧ Text.trimRight names = v.imported ∧
      v.imported ≠ [] := by
  unfold parse? at h
  split at h
  · cases h
  rename_i hspan
  simp only [Option.bind_eq_bind] at h
  obtain ⟨start, hstart, h⟩ := Option.bind_eq_some_iff.mp h
  split at h
  · cases h
  rename_i hdots
  obtain ⟨keyword, hblanks, h⟩ := Option.bind_eq_some_iff.mp h
  obtain ⟨behind, hkeyword, h⟩ := Option.bind_eq_some_iff.mp h
  obtain ⟨tail, hgap, h⟩ := Option.bind_eq_some_iff.mp h
  obtain ⟨⟨names, comment⟩, hnames, h⟩ := Option.bind_eq_some_iff.mp h
  split at h
  · cases h
  rename_i himported
  cases h
  refine ⟨Bool.eq_false_iff.mpr hspan, tail, names, ?_, hnames, rfl, by simpa using himported⟩
  obtain ⟨hmodule, hismodule⟩ := takeModule_spec (start.dropWhile (· == '.'))
  obtain ⟨blanks, hb, hbne, hball, -⟩ := skipBlanks?_eq_some.mp hblanks
  obtain ⟨gap, hg, hgne, hgall, hstops⟩ := skipBlanks?_eq_some.mp hgap
  have hrun : List.replicate (start.takeWhile (· == '.')).length '.' =
      start.takeWhile (· == '.') := by
    refine (List.eq_replicate_of_mem fun c hc => ?_).symm
    have hdot := Text.of_mem_takeWhile (p := (· == '.')) hc
    exact beq_iff_eq.mp hdot
  refine ⟨List.all_takeWhile, ?_, hismodule, ⟨blanks, gap, ?_, ⟨hbne, hball⟩, hgne, hgall⟩, hstops⟩
  · exact List.length_pos_iff.mpr (by simpa using hdots)
  · simp only [hrun]
    rw [← hg, ← Text.stripStart?_eq_some.mp hkeyword, ← hb, ← hmodule,
      List.takeWhile_append_dropWhile, ← Text.stripStart?_eq_some.mp hstart, Text.trimLeft,
      List.takeWhile_append_dropWhile]

theorem parse?_of_opens {line tail names : Text} {v : ImportLine} (hspan : spansLines line = false)
    (hopens : Opens line v tail) (hnames : takeImported tail = some (names, v.comment))
    (himported : Text.trimRight names = v.imported) (hne : v.imported ≠ []) :
    parse? line = some v := by
  obtain ⟨hindent, hdots, hmodule, ⟨blanks, gap, hline, ⟨hbne, hball⟩, hgne, hgall⟩, htail⟩ :=
    hopens
  have hfrom : Text.Stops Text.isBlank ("from ".toList ++ (List.replicate v.dots '.' ++ (v.module ++
      (blanks ++ ("import".toList ++ (gap ++ tail)))))) := Text.stops_cons.mpr (by decide)
  have hkeyword : Text.Stops Text.isBlank ("import".toList ++ (gap ++ tail)) :=
    Text.stops_cons.mpr (by decide)
  have hstopRest := stops_isNameRest hbne hball ("import".toList ++ (gap ++ tail))
  have hstopDots := stops_isDot hmodule hbne hball ("import".toList ++ (gap ++ tail))
  have hrun : ∀ c ∈ List.replicate v.dots '.', (c == '.') = true := by
    intro c hc
    exact beq_iff_eq.mpr (List.eq_of_mem_replicate hc)
  have hblank := Text.allBlank_iff.mp hindent
  have hsome : (List.replicate v.dots '.').isEmpty = false := by
    rw [List.isEmpty_replicate]
    exact decide_eq_false (by omega)
  have hnonempty : v.imported.isEmpty = false := by simpa using hne
  unfold parse?
  simp only [hspan, Bool.false_eq_true, ↓reduceIte, Option.bind_eq_bind]
  rw [Text.trimLeft, hline, Text.dropWhile_append_stops hblank hfrom,
    Text.takeWhile_append_stops hblank hfrom, Text.stripStart?_eq_some.mpr rfl]
  simp only [Option.bind_some, Text.takeWhile_append_stops hrun hstopDots,
    Text.dropWhile_append_stops hrun hstopDots, hsome, Bool.false_eq_true, ↓reduceIte,
    takeModule_append hmodule hstopRest, List.length_replicate]
  rw [skipBlanks?_eq_some.mpr ⟨blanks, rfl, hbne, hball, hkeyword⟩]
  simp only [Option.bind_some]
  rw [Text.stripStart?_eq_some.mpr rfl]
  simp only [Option.bind_some]
  rw [skipBlanks?_eq_some.mpr ⟨gap, rfl, hgne, hgall, htail⟩]
  simp only [Option.bind_some, hnames, himported, hnonempty, Bool.false_eq_true, ↓reduceIte]

/-- Reading a line without a line feed finds parts that the grammar allows. -/
theorem Grammar.of_parse? {line : Text} {v : ImportLine} (hline : '\n' ∉ line)
    (h : parse? line = some v) : Grammar line v := by
  obtain ⟨hspan, tail, names, hopens, hnames, himported, hne⟩ := opens_of_parse? h
  obtain ⟨hindent, hdots, hmodule, ⟨blanks, gap, heq, hblanks, hgap⟩, htail⟩ := hopens
  have hfeed : '\n' ∉ tail := fun hm => hline (by rw [heq]; simp [hm])
  obtain ⟨hhash, htight, rest, rfl, hrest⟩ := (takeImported_eq_some hfeed).mp hnames
  rw [Text.trimRight_eq_self htight] at himported
  subst himported
  have hstops : Text.Stops Text.isBlank v.imported := by
    rw [List.append_assoc] at htail
    exact (Text.stops_append hne).mp htail
  obtain ⟨hback, hlist, hopen⟩ := spansLines_eq_false_iff.mp hspan
  refine ⟨hback, hlist, hopen, blanks, gap, rest, ?_, hindent, hdots, hmodule, hblanks, hgap,
    ⟨hne, hhash, hstops, htight⟩, hrest⟩
  simpa only [List.append_assoc] using heq

/-- Reading a line without a line feed finds the parts that the grammar gives it. -/
theorem Grammar.parse? {line : Text} {v : ImportLine} (hline : '\n' ∉ line)
    (h : Grammar line v) : ImportLine.parse? line = some v := by
  obtain ⟨hback, hlist, hopen, blanks, gap, rest, heq, hindent, hdots, hmodule, hblanks, hgap,
    ⟨hne, hhash, hstops, htight⟩, hrest⟩ := h
  have hspan := spansLines_eq_false_iff.mpr ⟨hback, hlist, hopen⟩
  have hopens : Opens line v (v.imported ++ (v.comment ++ rest)) := by
    refine ⟨hindent, hdots, hmodule, ⟨blanks, gap, ?_, hblanks, hgap⟩, ?_⟩
    · simpa only [List.append_assoc] using heq
    · exact (Text.stops_append hne).mpr hstops
  have hfeed : '\n' ∉ v.imported ++ (v.comment ++ rest) := by
    intro hm
    rw [heq] at hline
    simp only [List.append_assoc, List.mem_append] at hm hline
    exact hline (by simp [hm])
  have hcuts : Cuts (v.imported ++ (v.comment ++ rest)) v.imported v.comment :=
    ⟨hhash, htight, rest, (List.append_assoc ..).symm, hrest⟩
  exact parse?_of_opens hspan hopens ((takeImported_eq_some hfeed).mpr hcuts)
    (Text.trimRight_eq_self htight) hne

/-- Reading a line without a line feed finds exactly the parts that the grammar allows, of which
there is at most one choice; every other line gives nothing. -/
theorem parse?_exact (line : Text) (hline : '\n' ∉ line) :
    (∀ v, parse? line = some v ↔ Grammar line v) ∧
    (∀ v w, Grammar line v → Grammar line w → v = w) ∧
    ((∀ v, ¬Grammar line v) → parse? line = none ∧ (parse? line).getD empty = empty) := by
  refine ⟨fun v => ⟨Grammar.of_parse? hline, Grammar.parse? hline⟩, ?_, ?_⟩
  · intro v w hv hw
    have heq := (hv.parse? hline).symm.trans (hw.parse? hline)
    exact Option.some.inj heq
  · intro hnone
    cases h : parse? line with
    | none => exact ⟨rfl, rfl⟩
    | some v => exact absurd (Grammar.of_parse? hline h) (hnone v)

/-- White space of several kinds, names with white space inside, and a comment with a second
hash: there is one reading, and none of the same line with its names gone. -/
theorem parse?_exact_spaced :
    Grammar "\t from ..a.b \timport\u00a0 c as d, (e) \t# x # (y)".toList
      ⟨"\t ".toList, 2, "a.b".toList, "c as d, (e)".toList, " \t# x # (y)".toList⟩ ∧
    ∀ v, ¬Grammar "\t from ..a.b \timport\u00a0 \t# x # (y)".toList v := by
  refine ⟨((parse?_exact _ (by decide)).1 _).mp (by decide), fun v hv => ?_⟩
  have hread := ((parse?_exact _ (by decide)).1 v).mpr hv
  have hnone : parse? "\t from ..a.b \timport\u00a0 \t# x # (y)".toList = none := by decide
  rw [hnone] at hread
  cases hread

end AbsoluteImports.ImportLine
