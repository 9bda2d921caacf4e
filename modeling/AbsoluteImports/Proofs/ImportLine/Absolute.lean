import AbsoluteImports.Package
import AbsoluteImports.Proofs.Change
import AbsoluteImports.Proofs.ImportLine.Grammar

/-!
# Lines that have been made absolute

A line that has been made absolute should not be a relative import any more. Whether it is one
depends on the package alone: a package is `Settled` when four sample imports, made absolute in
it, are read as no relative import, and then no line is left relative. A package whose name
begins with a dot may not be settled.
-/

namespace AbsoluteImports.ImportLine

/-! ### Comments in front of a given end -/

/-- A text whose first character behind white space is neither missing nor a hash. -/
def Inert (s : Text) : Prop :=
  ∃ w c r, s = w ++ c :: r ∧ Text.allBlank w = true ∧ Text.isBlank c = false ∧ c ≠ '#'

/-- A comment that begins before the text may end with it. -/
def closes (s : Text) : Bool := Text.allBlank (s.dropWhile (· != '\n'))

theorem Inert.not_allBlank {s : Text} (h : Inert s) (u : Text) :
    Text.allBlank (u ++ s) = false := by
  obtain ⟨w, c, r, rfl, -, hc, -⟩ := h
  refine Bool.eq_false_iff.mpr fun hall => ?_
  rw [Text.allBlank_iff.mp hall c (by simp)] at hc
  cases hc

theorem Inert.not_isComment {s : Text} (h : Inert s) : ¬IsComment s := by
  obtain ⟨w, c, r, rfl, hw, hc, hhash⟩ := h
  induction w with
  | nil =>
    rw [List.nil_append, isComment_cons]
    rintro (rfl | ⟨hb, -⟩)
    · exact hhash rfl
    · rw [hc] at hb
      cases hb
  | cons d w ih =>
    have hall := Text.allBlank_iff.mp hw
    rw [List.cons_append, isComment_cons]
    rintro (rfl | ⟨-, hcom⟩)
    · have hb := hall '#' (List.mem_cons_self ..)
      cases hb
    · exact ih (Text.allBlank_iff.mpr fun x hx => hall x (List.mem_cons_of_mem _ hx)) hcom

/-- Whether a comment before an inert text may end with it: the comment has begun, and goes on
without a line feed. -/
theorem closes_append {r s : Text} (hs : Inert s) :
    closes (r ++ s) = true ↔ '\n' ∉ r ∧ closes s = true := by
  induction r with
  | nil => simp
  | cons c r ih =>
    by_cases hc : c = '\n'
    · subst hc
      have hclosed : closes ('\n' :: r ++ s) = false := hs.not_allBlank ('\n' :: r)
      rw [hclosed]
      simp
    · have hstep : closes (c :: r ++ s) = closes (r ++ s) := by
        simp [closes, hc]
      rw [hstep, ih, List.mem_cons, not_or]
      simp [Ne.symm hc]

theorem comment?_isSome {s : Text} :
    (comment? s).isSome = true ↔
      ∃ w r, s = w ++ '#' :: r ∧ Text.allBlank w = true ∧ closes r = true := by
  have hsplit : s.takeWhile Text.isBlank ++ s.dropWhile Text.isBlank = s :=
    List.takeWhile_append_dropWhile
  constructor
  · intro h
    rw [comment?] at h
    split at h
    · rename_i r hd
      split at h
      · rename_i hclosed
        rw [hd] at hsplit
        exact ⟨_, r, hsplit.symm, List.all_takeWhile, hclosed⟩
      · cases h
    · cases h
  · rintro ⟨w, r, rfl, hw, hclosed⟩
    have hstop : Text.Stops Text.isBlank ('#' :: r) := Text.stops_cons.mpr (by decide)
    rw [comment?, Text.dropWhile_append_stops (Text.allBlank_iff.mp hw) hstop]
    simp only [closes] at hclosed
    simp [hclosed]

/-- Whether a comment is read in front of an inert text depends on the text through `closes`. -/
theorem comment?_append_isSome {u s : Text} (hs : Inert s) :
    (comment? (u ++ s)).isSome = true ↔
      (∃ w r, u = w ++ '#' :: r ∧ Text.allBlank w = true ∧ '\n' ∉ r) ∧ closes s = true := by
  rw [comment?_isSome]
  constructor
  · rintro ⟨w, r, heq, hw, hclosed⟩
    rcases List.append_eq_append_iff.mp heq with ⟨y, rfl, hy⟩ | ⟨y, rfl, hy⟩
    · -- the hash cannot stand in the inert text
      exact absurd ⟨y, r, hy, (Text.allBlank_append.mp hw).2⟩ hs.not_isComment
    · cases y with
      | nil => exact absurd ⟨[], r, hy.symm, rfl⟩ hs.not_isComment
      | cons d y =>
        rw [List.cons_append, List.cons.injEq] at hy
        obtain ⟨rfl, rfl⟩ := hy
        obtain ⟨hfeed, hs⟩ := (closes_append hs).mp hclosed
        exact ⟨⟨w, y, rfl, hw, hfeed⟩, hs⟩
  · rintro ⟨⟨w, r, rfl, hw, hfeed⟩, hclosed⟩
    exact ⟨w, r ++ s, by simp, hw, (closes_append hs).mpr ⟨hfeed, hclosed⟩⟩

/-- Where no comment begins and more than white space is left, a character belongs to the
names. -/
theorem takeImported_eq_some_cons {c : Char} {s n k : Text} (hcomment : comment? (c :: s) = none)
    (hblank : Text.allBlank (c :: s) = false) :
    takeImported (c :: s) = some (n, k) ↔
      c ≠ '\n' ∧ ∃ r, n = c :: r ∧ takeImported s = some (r, k) := by
  rw [takeImported_cons, hcomment]
  simp only [hblank, Bool.false_eq_true, ↓reduceIte]
  constructor
  · intro h
    split at h
    · cases h
    · rename_i hc
      obtain ⟨⟨r, k'⟩, hr, he⟩ := Option.map_eq_some_iff.mp h
      cases he
      exact ⟨hc, r, rfl, hr⟩
  · rintro ⟨hc, r, rfl, hr⟩
    simp only [hc, ↓reduceIte, hr, Option.map_some]

theorem head_of_takeImported {s n k : Text} (h : takeImported s = some (n, k)) (hne : n ≠ []) :
    ∃ c r r', s = c :: r ∧ n = c :: r' := by
  cases s with
  | nil =>
    have hnil : takeImported [] = some ([], []) := by decide
    rw [hnil] at h
    cases h
    exact absurd rfl hne
  | cons c s =>
    cases hcomment : comment? (c :: s) with
    | some kc =>
      rw [takeImported_cons, hcomment] at h
      cases h
      exact absurd rfl hne
    | none =>
      cases hblank : Text.allBlank (c :: s) with
      | true =>
        rw [takeImported_cons, hcomment] at h
        simp only [hblank, ↓reduceIte, Option.some.injEq, Prod.mk.injEq] at h
        exact absurd h.1.symm hne
      | false =>
        obtain ⟨-, r, rfl, -⟩ := (takeImported_eq_some_cons hcomment hblank).mp h
        exact ⟨c, s, r, rfl, rfl⟩

theorem Inert.takeImported_ne_nil {s n k : Text} (h : Inert s)
    (hn : takeImported s = some (n, k)) : n ≠ [] := by
  cases s with
  | nil => exact absurd (h.not_allBlank []) (by decide)
  | cons c s =>
    have hnone : comment? (c :: s) = none := by
      refine Option.not_isSome_iff_eq_none.mp fun hsome => ?_
      obtain ⟨⟨w, r, hw, -⟩, -⟩ := (comment?_append_isSome (u := []) h).mp hsome
      exact absurd hw (by simp)
    obtain ⟨-, r, rfl, -⟩ := (takeImported_eq_some_cons hnone (h.not_allBlank [])).mp hn
    exact List.cons_ne_nil c r

theorem takeImported_append {u s t n k : Text} (hs : Inert s) (ht : Inert t)
    (hcloses : closes s = closes t) (hsome : (takeImported t).isSome = true)
    (h : takeImported (u ++ s) = some (n, k)) :
    ∃ n' k', takeImported (u ++ t) = some (n', k') ∧ (n ≠ [] → n' ≠ []) := by
  induction u generalizing n with
  | nil =>
    obtain ⟨⟨n', k'⟩, hn⟩ := Option.isSome_iff_exists.mp hsome
    exact ⟨n', k', hn, fun _ => ht.takeImported_ne_nil hn⟩
  | cons c u ih =>
    have hcomment : (comment? (c :: u ++ s)).isSome = (comment? (c :: u ++ t)).isSome := by
      rw [Bool.eq_iff_iff, comment?_append_isSome hs, comment?_append_isSome ht, hcloses]
    cases hks : comment? (c :: u ++ s) with
    | some ks =>
      rw [hks] at hcomment
      obtain ⟨kt, hkt⟩ := Option.isSome_iff_exists.mp hcomment.symm
      rw [List.cons_append] at h hks hkt ⊢
      rw [takeImported_cons, hks] at h
      cases h
      exact ⟨[], kt, by rw [takeImported_cons, hkt], fun hne => absurd rfl hne⟩
    | none =>
      rw [hks] at hcomment
      have hkt := Option.isNone_iff_eq_none.mp (Option.isSome_eq_false_iff.mp hcomment.symm)
      obtain ⟨hc, r, rfl, hr⟩ :=
        (takeImported_eq_some_cons hks (hs.not_allBlank (c :: u))).mp h
      obtain ⟨n', k', hn, -⟩ := ih hr
      refine ⟨c :: n', k', ?_, fun _ => List.cons_ne_nil c n'⟩
      exact (takeImported_eq_some_cons hkt (ht.not_allBlank (c :: u))).mpr ⟨hc, n', rfl, hn⟩

/-! ### What follows the word that opens an import -/

/-- What has to stand behind the second keyword: white space, and names. -/
def Ends (s : Text) : Prop :=
  ∃ gap tail n k, s = gap ++ tail ∧ (gap ≠ [] ∧ Text.allBlank gap = true) ∧
    Text.Stops Text.isBlank tail ∧ takeImported tail = some (n, k) ∧ Text.trimRight n ≠ []

/-- What has to stand behind the first keyword: dots, a module, white space, and the rest. -/
def Continues (s : Text) : Prop :=
  ∃ dots m blanks rest,
    s = List.replicate dots '.' ++ (m ++ (blanks ++ ("import".toList ++ rest))) ∧
    0 < dots ∧ IsModule m ∧ (blanks ≠ [] ∧ Text.allBlank blanks = true) ∧ Ends rest

theorem parse?_isSome_iff {indent s : Text} (hindent : Text.allBlank indent = true) :
    (parse? (indent ++ ("from ".toList ++ s))).isSome = true ↔
      spansLines (indent ++ ("from ".toList ++ s)) = false ∧ Continues s := by
  constructor
  · intro h
    obtain ⟨v, hv⟩ := Option.isSome_iff_exists.mp h
    obtain ⟨hspan, tail, n, hopens, hn, himported, hne⟩ := opens_of_parse? hv
    obtain ⟨hblank, hdots, hm, ⟨blanks, gap, heq, hblanks, hgap⟩, htail⟩ := hopens
    refine ⟨hspan, v.dots, v.module, blanks, gap ++ tail, ?_, hdots, hm, hblanks,
      gap, tail, n, v.comment, rfl, hgap, htail, hn, himported ▸ hne⟩
    have hstop : ∀ r : Text, Text.Stops Text.isBlank ("from ".toList ++ r) :=
      fun r => Text.stops_cons.mpr (by decide)
    have hdrop := congrArg (List.dropWhile Text.isBlank) heq
    rw [Text.dropWhile_append_stops (Text.allBlank_iff.mp hindent) (hstop s),
      Text.dropWhile_append_stops (Text.allBlank_iff.mp hblank) (hstop _)] at hdrop
    exact List.append_cancel_left hdrop
  · rintro ⟨hspan, dots, m, blanks, rest, rfl, hdots, hm, hblanks,
      gap, tail, n, k, rfl, hgap, htail, hn, hne⟩
    have hread := parse?_of_opens (v := ⟨indent, dots, m, Text.trimRight n, k⟩) hspan
      ⟨hindent, hdots, hm, ⟨blanks, gap, rfl, hblanks, hgap⟩, htail⟩ hn rfl hne
    rw [hread]
    rfl

def ending (v : ImportLine) : Text :=
  (if v.module.isEmpty then [] else '.' :: v.module) ++
    (" import ".toList ++ (v.imported ++ v.comment))

theorem absolute_eq_ending (v : ImportLine) (p : Text) :
    v.absolute p = v.indent ++ ("from ".toList ++ (p ++ v.ending)) := by
  simp only [absolute, target, ending]
  split
  · simp only [List.nil_append, List.append_assoc]
  · simp only [List.cons_append, List.append_assoc]

theorem inert_ending (v : ImportLine) : Inert v.ending := by
  unfold ending
  split
  · exact ⟨[' '], 'i', _, rfl, by decide, by decide, by decide⟩
  · exact ⟨[], '.', _, rfl, by decide, by decide, by decide⟩

/-- Four imports that stand for all others: without a module and with one, and without a comment
and with one behind a line feed. -/
def samples : List ImportLine := [
  ⟨[], 1, [], "x".toList, []⟩,
  ⟨[], 1, "a".toList, "x".toList, []⟩,
  ⟨[], 1, [], "x".toList, "\n#".toList⟩,
  ⟨[], 1, "a".toList, "x".toList, "\n#".toList⟩]

theorem allBlank_indent_sample : ∀ w ∈ samples, Text.allBlank w.indent = true := by decide

theorem exists_sample (v : ImportLine) :
    ∃ w ∈ samples, w.module.isEmpty = v.module.isEmpty ∧ closes w.ending = closes v.ending := by
  have hall : ∀ a b : Bool, ∃ w ∈ samples, w.module.isEmpty = a ∧ closes w.ending = b := by decide
  exact hall _ _

theorem ends_sample : ∀ w ∈ samples, Ends (' ' :: (w.imported ++ w.comment)) := by
  have hread : ∀ w ∈ samples, w.imported = "x".toList ∧
      takeImported (w.imported ++ w.comment) = some (w.imported, w.comment) := by decide
  intro w hw
  obtain ⟨hx, htake⟩ := hread w hw
  rw [hx] at htake ⊢
  exact ⟨[' '], _, _, _, rfl, by decide, Text.stops_cons.mpr (by decide), htake, by decide⟩

/-! ### Replacing a line by a sample -/

theorem trimRight_ne_nil {c : Char} {n : Text} (hc : Text.isBlank c = false) :
    Text.trimRight (c :: n) ≠ [] := by
  have hall : Text.allBlank (c :: n) = false := by simp [Text.allBlank, hc]
  rw [Text.trimRight, if_neg (by simp [hall])]
  exact List.cons_ne_nil c _

/-- Names that are not empty are left when they are trimmed, for they do not begin with white
space. -/
theorem ends_of_takeImported {gap tail n k : Text}
    (hgap : gap ≠ [] ∧ Text.allBlank gap = true) (htail : Text.Stops Text.isBlank tail)
    (hn : takeImported tail = some (n, k)) (hne : n ≠ []) : Ends (gap ++ tail) := by
  obtain ⟨c, r, r', rfl, rfl⟩ := head_of_takeImported hn hne
  exact ⟨gap, c :: r, c :: r', k, rfl, hgap, htail, hn, trimRight_ne_nil (Text.stops_cons.mp htail)⟩

theorem ending_of_isEmpty {v : ImportLine} (h : v.module.isEmpty = true) :
    v.ending = ' ' :: ("import ".toList ++ (v.imported ++ v.comment)) := by
  simp [ending, h]

theorem head?_ending (v : ImportLine) :
    v.ending.head? = some (if v.module.isEmpty then ' ' else '.') := by
  unfold ending
  split
  · rfl
  · rfl

theorem stops_ending {v w : ImportLine} (hmodule : w.module.isEmpty = v.module.isEmpty)
    {p : Char → Bool} {u : Text} (h : Text.Stops p (u ++ v.ending)) :
    Text.Stops p (u ++ w.ending) := by
  by_cases hu : u = []
  · subst hu
    simp only [Text.Stops, List.nil_append, head?_ending] at h ⊢
    rw [hmodule]
    exact h
  · exact (Text.stops_append hu).mpr ((Text.stops_append hu).mp h)

/-- White space in front of a line without a module: the names begin with the second keyword of
the line. -/
theorem ends_of_blank {y : Text} {w : ImportLine} (hw : w ∈ samples)
    (hempty : w.module.isEmpty = true) (hy : Text.allBlank y = true) : Ends (y ++ w.ending) := by
  have hall : ∀ w ∈ samples, (takeImported w.ending.tail).isSome = true := by decide
  have hsome := hall w hw
  rw [ending_of_isEmpty hempty] at hsome ⊢
  obtain ⟨⟨n, k⟩, hn⟩ := Option.isSome_iff_exists.mp hsome
  have hinert : Inert ("import ".toList ++ (w.imported ++ w.comment)) :=
    ⟨[], 'i', _, rfl, by decide, by decide, by decide⟩
  rw [List.append_cons]
  refine ends_of_takeImported ⟨by simp, ?_⟩ (Text.stops_cons.mpr (by decide)) hn
    (hinert.takeImported_ne_nil hn)
  exact Text.allBlank_append.mpr ⟨hy, by decide⟩

/-- The second keyword stands in the package: then the names begin in it, or right behind it. -/
theorem Ends.sample {y : Text} {v w : ImportLine} (hw : w ∈ samples)
    (hmodule : w.module.isEmpty = v.module.isEmpty) (hcloses : closes w.ending = closes v.ending)
    (h : Ends (y ++ v.ending)) : Ends (y ++ w.ending) := by
  obtain ⟨gap, tail, n, k, heq, hgap, htail, hn, hne⟩ := h
  have hnames : n ≠ [] := by
    rintro rfl
    exact hne rfl
  have hinside : ∀ u, y = gap ++ u → tail = u ++ v.ending → Ends (y ++ w.ending) := by
    rintro u rfl rfl
    have hsome : ∀ w ∈ samples, (takeImported w.ending).isSome = true := by decide
    obtain ⟨n', k', hn', hne'⟩ := takeImported_append (inert_ending v) (inert_ending w)
      hcloses.symm (hsome w hw) hn
    rw [List.append_assoc]
    exact ends_of_takeImported hgap (stops_ending hmodule htail) hn' (hne' hnames)
  rcases List.append_eq_append_iff.mp heq with ⟨u, rfl, hu⟩ | ⟨u, hy, hu⟩
  · cases u with
    | nil => exact hinside [] (by simp) (by simpa using hu.symm)
    | cons c u =>
      -- white space of the gap is left for the end of the line, so there is no module
      obtain ⟨hy, hc⟩ := Text.allBlank_append.mp hgap.2
      have hhead := head?_ending v
      rw [hu, List.cons_append, List.head?_cons, Option.some.injEq] at hhead
      have hempty : v.module.isEmpty = true := by
        refine Classical.byContradiction fun hm => ?_
        rw [if_neg hm] at hhead
        have hblank := Text.allBlank_iff.mp hc c (List.mem_cons_self ..)
        rw [hhead] at hblank
        cases hblank
      exact ends_of_blank hw (hmodule.trans hempty) hy
  · exact hinside u hy hu

theorem append_cons_eq_append {c : Char} {p y a b : Text} (h : p ++ c :: y = a ++ b) :
    (∃ q, p = a ++ q ∧ b = q ++ c :: y) ∨ ∃ q, a = p ++ c :: q := by
  rcases List.append_eq_append_iff.mp h with ⟨q, rfl, hq⟩ | ⟨q, rfl, hq⟩
  · cases q with
    | nil => exact .inl ⟨[], by simp, by simpa using hq.symm⟩
    | cons d q =>
      obtain ⟨rfl, -⟩ := List.cons.inj hq
      exact .inr ⟨q, rfl⟩
  · exact .inl ⟨q, rfl, hq⟩

/-- The second keyword stands behind the package and there is no module: the package is read as
dots and a module. -/
theorem continues_of_space {p y m blanks : Text} {dots : Nat} {w : ImportLine} (hw : w ∈ samples)
    (hmodule : w.module.isEmpty = true) (hdots : 0 < dots) (hm : IsModule m)
    (hblanks : Text.allBlank blanks = true)
    (h : p ++ ' ' :: y = List.replicate dots '.' ++ (m ++ (blanks ++ "import".toList))) :
    Continues (p ++ w.ending) := by
  have hspace : ' ' ∉ List.replicate dots '.' ++ m := by
    intro hmem
    rcases List.mem_append.mp hmem with hd | hd
    · exact absurd (List.eq_of_mem_replicate hd) (by decide)
    · have hrest := hm.isNameRest ' ' hd
      cases hrest
  rw [← List.append_assoc] at h
  rcases append_cons_eq_append h with ⟨q, rfl, hq⟩ | ⟨q, hq⟩
  · rcases append_cons_eq_append hq.symm with ⟨q', -, hq'⟩ | ⟨q', rfl⟩
    · have hmem : ' ' ∈ "import".toList := by simp [hq']
      exact absurd hmem (by decide)
    · refine ⟨dots, m, q ++ [' '], ' ' :: (w.imported ++ w.comment), ?_, hdots, hm,
        ⟨by simp, ?_⟩, ends_sample w hw⟩
      · rw [ending_of_isEmpty hmodule]
        simp
      · exact Text.allBlank_append.mpr ⟨(Text.allBlank_append.mp hblanks).1, by decide⟩
  · rw [hq] at hspace
    exact absurd (by simp) hspace

theorem isModule_of_dot {m r : Text} (h : IsModule (m ++ '.' :: r)) :
    IsModule (m ++ ".a".toList) := by
  rcases h with h | ⟨c, s, h, hc, hs⟩
  · exact absurd h (by simp)
  · cases m with
    | nil =>
      obtain ⟨rfl, -⟩ := List.cons.inj h
      cases hc
    | cons d m =>
      obtain ⟨rfl, rfl⟩ := List.cons.inj h
      refine .inr ⟨d, m ++ ".a".toList, rfl, hc, fun x hx => ?_⟩
      rcases List.mem_append.mp hx with hx | hx
      · exact hs x (List.mem_append_left _ hx)
      · have hall : ".a".toList.all isNameRest = true := by decide
        exact List.all_eq_true.mp hall x hx

/-- The second keyword stands behind the package and there is a module: the package with a dot
behind it begins with dots and a module. -/
theorem continues_of_dot {p y m blanks : Text} {dots : Nat} {w : ImportLine} (hw : w ∈ samples)
    (hmodule : w.module.isEmpty = false) (hdots : 0 < dots) (hm : IsModule m)
    (hblanks : Text.allBlank blanks = true)
    (h : p ++ '.' :: y = List.replicate dots '.' ++ (m ++ (blanks ++ "import".toList))) :
    Continues (p ++ w.ending) := by
  have hdot : '.' ∉ blanks ++ "import".toList := by
    intro hmem
    rcases List.mem_append.mp hmem with hb | hi
    · have hblank := Text.allBlank_iff.mp hblanks '.' hb
      cases hblank
    · exact absurd hi (by decide)
  have hending : ∀ w ∈ samples, w.module.isEmpty = false →
      w.ending =
        '.' :: 'a' :: ([' '] ++ ("import".toList ++ ' ' :: (w.imported ++ w.comment))) := by
    decide
  have hone : [' '] ≠ [] ∧ Text.allBlank [' '] = true := by decide
  rw [hending w hw hmodule]
  rw [← List.append_assoc] at h
  rcases append_cons_eq_append h with ⟨q, -, hq⟩ | ⟨q, hq⟩
  · rw [hq] at hdot
    exact absurd (by simp) hdot
  · rcases append_cons_eq_append hq.symm with ⟨q', rfl, hq'⟩ | ⟨q', hq'⟩
    · -- the package ends inside the module
      have hm' := isModule_of_dot (hq' ▸ hm)
      exact ⟨dots, q' ++ ".a".toList, [' '], _, by simp, hdots, hm', hone, ends_sample w hw⟩
    · -- the package is a run of dots
      have hp : p ++ ['.'] = List.replicate (p.length + 1) '.' := by
        refine List.eq_replicate_iff.mpr ⟨by simp, fun x hx => ?_⟩
        refine List.eq_of_mem_replicate (n := dots) ?_
        rw [hq']
        simp only [List.mem_append, List.mem_cons, List.not_mem_nil, or_false] at hx ⊢
        exact hx.imp_right .inl
      refine ⟨p.length + 1, ['a'], [' '], _, ?_, by omega, ?_, hone, ends_sample w hw⟩
      · rw [← hp]
        simp
      · exact .inr ⟨'a', [], rfl, by decide, by simp⟩

/-- A line that is relative after it has been made absolute gives a sample that is. -/
theorem Continues.sample {p : Text} {v : ImportLine} (h : Continues (p ++ v.ending)) :
    ∃ w ∈ samples, Continues (p ++ w.ending) := by
  obtain ⟨w, hw, hmodule, hcloses⟩ := exists_sample v
  refine ⟨w, hw, ?_⟩
  obtain ⟨dots, m, blanks, rest, heq, hdots, hm, hblanks, hends⟩ := h
  have hregroup : p ++ v.ending =
      (List.replicate dots '.' ++ (m ++ (blanks ++ "import".toList))) ++ rest := by
    simp only [heq, List.append_assoc]
  have hinside : ∀ y, p = List.replicate dots '.' ++ (m ++ (blanks ++ "import".toList)) ++ y →
      rest = y ++ v.ending → Continues (p ++ w.ending) := by
    rintro y rfl rfl
    exact ⟨dots, m, blanks, y ++ w.ending, by simp only [List.append_assoc], hdots, hm, hblanks,
      hends.sample hw hmodule hcloses⟩
  rcases List.append_eq_append_iff.mp hregroup with ⟨y, hy, hrest⟩ | ⟨y, hy, hrest⟩
  · cases y with
    | nil => exact hinside [] (by simpa using hy.symm) (by simpa using hrest.symm)
    | cons c y =>
      have hhead := head?_ending v
      rw [hrest, List.cons_append, List.head?_cons, Option.some.injEq] at hhead
      cases hempty : v.module.isEmpty with
      | true =>
        rw [hempty, if_pos rfl] at hhead
        subst hhead
        exact continues_of_space hw (hmodule.trans hempty) hdots hm hblanks.2 hy.symm
      | false =>
        rw [hempty, if_neg (by decide)] at hhead
        subst hhead
        exact continues_of_dot hw (hmodule.trans hempty) hdots hm hblanks.2 hy.symm
  · exact hinside y hy hrest

/-! ### Statements over several lines -/

theorem infix_of_append {a b w : Text} {c : Char} (hc : c ∉ b) (h : w ++ [c] <:+: a ++ b) :
    w ++ [c] <:+: a := by
  obtain ⟨x, y, hxy⟩ := h
  rcases List.append_eq_append_iff.mp hxy with ⟨q, rfl, -⟩ | ⟨q, hq, hb⟩
  · exact ⟨x, q, rfl⟩
  · rcases List.eq_nil_or_concat q with rfl | ⟨q, d, rfl⟩
    · exact ⟨x, [], by simpa using hq⟩
    · rw [List.concat_eq_append] at hq hb
      have hlast := congrArg List.getLast? hq
      rw [← List.append_assoc, ← List.append_assoc, List.getLast?_concat, List.getLast?_concat,
        Option.some.injEq] at hlast
      exact absurd (by simp [hb, hlast]) hc

theorem spansLines_of_not_mem {s : Text} (hback : '\\' ∉ s) (hparen : '(' ∉ s) :
    spansLines s = false := by
  refine spansLines_eq_false_iff.mpr ⟨hback, ?_, ?_⟩
  · intro hpiece
    exact hparen (hpiece.subset (by decide))
  · rintro before after rfl
    exact absurd (by simp) hparen

theorem spansLines_sample {indent p e : Text} {w : ImportLine} (hw : w ∈ samples)
    (h : spansLines (indent ++ ("from ".toList ++ (p ++ e))) = false) :
    spansLines (w.indent ++ ("from ".toList ++ (p ++ w.ending))) = false := by
  have hplain : ∀ w ∈ samples, w.indent = [] ∧ '\\' ∉ w.ending ∧ '(' ∉ w.ending := by decide
  obtain ⟨hindent, hback, hparen⟩ := hplain w hw
  obtain ⟨hnoBack, hnoList, -⟩ := spansLines_eq_false_iff.mp h
  rw [hindent, List.nil_append, ← List.append_assoc]
  refine spansLines_eq_false_iff.mpr ⟨?_, ?_, ?_⟩
  · intro hmem
    simp only [List.mem_append, not_or] at hnoBack hmem
    rcases hmem with (hmem | hmem) | hmem
    · exact hnoBack.2.1 hmem
    · exact hnoBack.2.2.1 hmem
    · exact hback hmem
  · intro hpiece
    have hfront := infix_of_append (w := "import ".toList) (c := '(') hparen hpiece
    refine hnoList (hfront.trans ⟨indent, e, ?_⟩)
    simp only [List.append_assoc]
  · intro before after heq
    rcases append_cons_eq_append heq.symm with ⟨q, -, hq⟩ | ⟨q, hq⟩
    · rw [hq] at hparen
      exact absurd (by simp) hparen
    · rw [hq, List.append_assoc, List.cons_append] at heq
      have hafter := List.append_cancel_left heq
      rw [← (List.cons.inj hafter).2]
      exact (inert_ending w).not_allBlank q

/-! ### Packages in which no line is left relative -/

/-- No sample is relative after it has been made absolute in the package. -/
def Settled (p : Text) : Prop := ∀ w ∈ samples, parse? (w.absolute p) = none

instance (p : Text) : Decidable (Settled p) := inferInstanceAs (Decidable (∀ w ∈ samples, _))

theorem Settled.parse?_absolute {p line : Text} {v : ImportLine} (h : Settled p)
    (hv : parse? line = some v) : parse? (v.absolute p) = none := by
  obtain ⟨-, _, _, hopens, -⟩ := opens_of_parse? hv
  refine Option.not_isSome_iff_eq_none.mp fun hsome => ?_
  rw [absolute_eq_ending, parse?_isSome_iff hopens.indent] at hsome
  obtain ⟨w, hw, hcontinues⟩ := hsome.2.sample
  have hread := (parse?_isSome_iff (allBlank_indent_sample w hw)).mpr
    ⟨spansLines_sample hw hsome.1, hcontinues⟩
  rw [← absolute_eq_ending, h w hw] at hread
  cases hread

theorem exists_line_of_sample (p : Text) {w : ImportLine} (hw : w ∈ samples) :
    ∃ line, absolute? p line = some (w.absolute p) := by
  have hread : ∀ w ∈ samples, ∃ a b, a ≠ b ∧ parse? a = some w ∧ parse? b = some w ∧
      w.dots = 1 := by
    intro w hw
    simp only [samples, List.mem_cons, List.not_mem_nil, or_false] at hw
    rcases hw with rfl | rfl | rfl | rfl
    · exact ⟨"from . import x".toList, "from .  import x".toList, by decide⟩
    · exact ⟨"from .a import x".toList, "from .a  import x".toList, by decide⟩
    · exact ⟨"from . import x\n#".toList, "from .  import x\n#".toList, by decide⟩
    · exact ⟨"from .a import x\n#".toList, "from .a  import x\n#".toList, by decide⟩
  obtain ⟨a, b, hne, ha, hb, hdots⟩ := hread w hw
  by_cases he : w.absolute p = a
  · exact ⟨b, absolute?_eq_some_iff.mpr ⟨w, hb, hdots, rfl, he ▸ hne⟩⟩
  · exact ⟨a, absolute?_eq_some_iff.mpr ⟨w, ha, hdots, rfl, he⟩⟩

theorem settled_of_head {c : Char} {p : Text} (hc : c ≠ '.') : Settled (c :: p) := by
  intro w hw
  refine Option.not_isSome_iff_eq_none.mp fun hsome => ?_
  rw [absolute_eq_ending, parse?_isSome_iff (allBlank_indent_sample w hw)] at hsome
  obtain ⟨dots, m, blanks, rest, heq, hdots, -⟩ := hsome.2
  obtain ⟨dots, rfl⟩ : ∃ n, dots = n + 1 := ⟨dots - 1, by omega⟩
  rw [List.cons_append, List.replicate_succ, List.cons_append, List.cons.injEq] at heq
  exact hc heq.1

theorem not_settled_of_isModule {m : Text} (hm : IsModule m) : ¬Settled ('.' :: m) := by
  intro h
  obtain ⟨w, hw, hindent, hempty, hback, hparen⟩ : ∃ w ∈ samples, w.indent = [] ∧ w.module = [] ∧
      '\\' ∉ w.ending ∧ '(' ∉ w.ending := by decide
  have hclear : ∀ c, isNameRest c = false → c ∉ "from ".toList → c ∉ w.ending →
      c ∉ w.indent ++ ("from ".toList ++ ('.' :: m ++ w.ending)) := by
    intro c hc hfrom hending hmem
    rw [hindent, List.nil_append] at hmem
    simp only [List.mem_append, List.mem_cons] at hmem
    rcases hmem with hmem | (rfl | hmem) | hmem
    · exact hfrom hmem
    · cases hc
    · rw [hm.isNameRest c hmem] at hc
      cases hc
    · exact hending hmem
  have hspan := spansLines_of_not_mem (hclear '\\' (by decide) (by decide) hback)
    (hclear '(' (by decide) (by decide) hparen)
  have hread := (parse?_isSome_iff (allBlank_indent_sample w hw)).mpr ⟨hspan, 1, m, [' '],
    ' ' :: (w.imported ++ w.comment), by simp [ending, hempty], by decide, hm, by decide,
    ends_sample w hw⟩
  rw [← absolute_eq_ending, h w hw] at hread
  cases hread

/-- Whether every line that is made absolute in a package is read as no relative import, and
stays as it is the second time, is decided by the samples. It holds for every name that does not
begin with a dot, and for no dot with a dotted name behind it. -/
theorem absolute?_final_iff (p : Text) :
    ((∀ line text, absolute? p line = some text → parse? text = none ∧ absolute? p text = none) ↔
      Settled p) ∧
    (∀ c q, p = c :: q → c ≠ '.' → Settled p) ∧
    (∀ m, p = '.' :: m → IsModule m → ¬Settled p) := by
  refine ⟨⟨?_, ?_⟩, ?_, ?_⟩
  · intro h w hw
    obtain ⟨line, hline⟩ := exists_line_of_sample p hw
    exact (h line _ hline).1
  · intro h line text htext
    obtain ⟨v, hv, -, rfl, -⟩ := absolute?_eq_some_iff.mp htext
    have hnone := h.parse?_absolute hv
    refine ⟨hnone, ?_⟩
    simp [absolute?, hnone]
  · rintro c q rfl hc
    exact settled_of_head hc
  · rintro m rfl hm
    exact not_settled_of_isModule hm

/-- In an ordinary package an import is absolute after one time. -/
theorem absolute?_final_ordinary :
    absolute? "pkg".toList "from .a import b".toList = some "from pkg.a import b".toList ∧
    parse? "from pkg.a import b".toList = none ∧
    absolute? "pkg".toList "from pkg.a import b".toList = none := by
  have hsettled := (absolute?_final_iff "pkg".toList).2.1 'p' "kg".toList rfl (by decide)
  have hchanged : absolute? "pkg".toList "from .a import b".toList =
      some "from pkg.a import b".toList := by decide
  exact ⟨hchanged, (absolute?_final_iff "pkg".toList).1.mpr hsettled _ _ hchanged⟩

/-- The directory `.pkg` is a package of that name. An import that is made absolute in it is
relative again, and changes a second time. -/
theorem absolute?_hidden_package :
    Package.name ["home".toList] ".pkg".toList = ".pkg".toList ∧
    absolute? ".pkg".toList "from .a import b".toList = some "from .pkg.a import b".toList ∧
    (parse? "from .pkg.a import b".toList).isSome = true ∧
    absolute? ".pkg".toList "from .pkg.a import b".toList =
      some "from .pkg.pkg.a import b".toList := by
  decide

end AbsoluteImports.ImportLine
