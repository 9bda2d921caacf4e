import AbsoluteImports.Proofs.ImportLine.Absolute

/-!
# What making a line absolute keeps

In a package whose name does not begin with a dot, exactly the imports with one dot are made
absolute. Whatever the package is called, the parts of an import can be read off the line that it
becomes, so that nothing but white space is lost: `absoluteLine_faithful`.
-/

namespace AbsoluteImports.ImportLine

/-! ### Reading the parts off a rendered line -/

theorem isNameRest_of_mem_suffix {v : ImportLine} (hm : IsModule v.module) :
    ∀ c ∈ (if v.module.isEmpty then [] else '.' :: v.module), isNameRest c = true := by
  intro c hc
  split at hc
  · exact absurd hc List.not_mem_nil
  · rcases List.mem_cons.mp hc with rfl | hc
    · decide
    · exact hm.isNameRest c hc

/-- What stands behind the package is the module up to the first white space, and then the names
and the comment. -/
theorem ending_injective {v w : ImportLine} (hv : IsModule v.module) (hw : IsModule w.module)
    (h : v.ending = w.ending) :
    v.module = w.module ∧ v.imported ++ v.comment = w.imported ++ w.comment := by
  have hstop : ∀ s : Text, Text.Stops isNameRest (" import ".toList ++ s) :=
    fun s => Text.stops_cons.mpr (by decide)
  obtain ⟨hsuffix, htail⟩ := Text.run_unique (isNameRest_of_mem_suffix hv) (hstop _)
    (isNameRest_of_mem_suffix hw) (hstop _) h
  refine ⟨?_, List.append_cancel_left htail⟩
  cases hvm : v.module with
  | nil =>
    cases hwm : w.module with
    | nil => rfl
    | cons d n => simp [hvm, hwm] at hsuffix
  | cons c m =>
    cases hwm : w.module with
    | nil => simp [hvm, hwm] at hsuffix
    | cons d n => simpa [hvm, hwm] using hsuffix

theorem Cuts.unique {s n k n' k' : Text} (hs : '\n' ∉ s) (h : Cuts s n k) (h' : Cuts s n' k') :
    n = n' ∧ k = k' := by
  have hread := (takeImported_eq_some hs).mpr h
  rw [(takeImported_eq_some hs).mpr h', Option.some.injEq, Prod.mk.injEq] at hread
  exact ⟨hread.1.symm, hread.2.symm⟩

theorem Grammar.isModule {line : Text} {v : ImportLine} (h : Grammar line v) :
    IsModule v.module := by
  obtain ⟨_, _, _, _, -, -, hm, -⟩ := h.parts
  exact hm

theorem Grammar.indent {line : Text} {v : ImportLine} (h : Grammar line v) :
    Text.allBlank v.indent = true := by
  obtain ⟨_, _, _, _, hindent, -⟩ := h.parts
  exact hindent

theorem Grammar.cuts {line : Text} {v : ImportLine} (h : Grammar line v) :
    Cuts (v.imported ++ v.comment) v.imported v.comment := by
  obtain ⟨_, _, rest, _, -, -, -, -, -, ⟨-, hhash, -, htight⟩, hrest⟩ := h.parts
  refine ⟨hhash, htight, [], by simp, ?_⟩
  rcases hrest with ⟨hnone, -⟩ | ⟨hcomment, -⟩
  · exact .inl ⟨hnone, rfl⟩
  · exact .inr ⟨hcomment, rfl⟩

theorem Grammar.lineFeed_not_mem {line : Text} {v : ImportLine} (h : Grammar line v)
    (hline : '\n' ∉ line) : '\n' ∉ v.imported ++ v.comment := by
  obtain ⟨_, _, _, heq, -⟩ := h.parts
  rw [heq] at hline
  simp only [List.mem_append, not_or] at hline ⊢
  exact ⟨hline.1.1.2, hline.1.2⟩

/-- Two imports with as many dots that are rendered alike have the same parts, for any package:
the indent ends at the first keyword, the module at the white space behind it, and the names at
the comment. -/
theorem Grammar.absolute_injective {a b p : Text} {v w : ImportLine} (hline : '\n' ∉ a)
    (hv : Grammar a v) (hw : Grammar b w) (hdots : v.dots = w.dots)
    (h : v.absolute p = w.absolute p) : v = w := by
  have hstop : ∀ r : Text, Text.Stops Text.isBlank ("from ".toList ++ r) :=
    fun r => Text.stops_cons.mpr (by decide)
  rw [absolute_eq_ending, absolute_eq_ending] at h
  obtain ⟨hindent, hbehind⟩ := Text.run_unique (Text.allBlank_iff.mp hv.indent) (hstop _)
    (Text.allBlank_iff.mp hw.indent) (hstop _) h
  have hending : v.ending = w.ending :=
    List.append_cancel_left (List.append_cancel_left hbehind)
  obtain ⟨hmodule, htail⟩ := ending_injective hv.isModule hw.isModule hending
  obtain ⟨himported, hcomment⟩ := Cuts.unique (hv.lineFeed_not_mem hline) hv.cuts
    (htail ▸ hw.cuts)
  calc v = ⟨v.indent, v.dots, v.module, v.imported, v.comment⟩ := rfl
    _ = ⟨w.indent, w.dots, w.module, w.imported, w.comment⟩ := by
      rw [hindent, hdots, hmodule, himported, hcomment]
    _ = w := rfl

/-! ### Which lines are rendered -/

/-- A line with one dot is not the line that it becomes, if the package does not begin with a
dot. -/
theorem absolute_ne_line {p line : Text} {v : ImportLine} (hne : p ≠ [])
    (hdot : p.head? ≠ some '.') (hv : parse? line = some v) (hdots : v.dots = 1) :
    v.absolute p ≠ line := by
  intro h
  obtain ⟨-, tail, -, hopens, -⟩ := opens_of_parse? hv
  obtain ⟨blanks, gap, hline, -⟩ := hopens.parts
  rw [absolute_eq_ending, hline, hdots] at h
  -- behind the first keyword one text goes on with a dot and the other with the package
  have hfront := List.append_cancel_left (List.append_cancel_left h)
  obtain ⟨c, q, rfl⟩ := List.exists_cons_of_ne_nil hne
  rw [List.cons_append, List.replicate_one, List.singleton_append, List.cons.injEq] at hfront
  exact hdot (by rw [List.head?_cons, hfront.1])

theorem absolute?_eq_some_of_parse? {p line : Text} {v : ImportLine} (hne : p ≠ [])
    (hdot : p.head? ≠ some '.') (hv : parse? line = some v) (hdots : v.dots = 1) :
    absolute? p line = some (v.absolute p) :=
  absolute?_eq_some_iff.mpr ⟨v, hv, hdots, rfl, absolute_ne_line hne hdot hv hdots⟩

/-- A line that holds an import with the given parts. Free is only the white space around the
second keyword, and at the end of a line without a comment. -/
def Spells (line : Text) (v : ImportLine) : Prop :=
  ∃ blanks gap rest,
    line = v.indent ++ "from ".toList ++ List.replicate v.dots '.' ++ v.module ++ blanks ++
      "import".toList ++ gap ++ v.imported ++ v.comment ++ rest ∧
    (blanks ≠ [] ∧ Text.allBlank blanks = true) ∧ (gap ≠ [] ∧ Text.allBlank gap = true) ∧
    Text.allBlank rest = true ∧ (v.comment ≠ [] → rest = [])

theorem Grammar.spells {line : Text} {v : ImportLine} (h : Grammar line v) : Spells line v := by
  obtain ⟨blanks, gap, rest, heq, -, -, -, hblanks, hgap, -, hrest⟩ := h.parts
  refine ⟨blanks, gap, rest, heq, hblanks, hgap, ?_, ?_⟩
  · rcases hrest with ⟨-, hr⟩ | ⟨-, rfl⟩
    · exact hr
    · rfl
  · intro hcomment
    rcases hrest with ⟨hnone, -⟩ | ⟨-, hr⟩
    · exact absurd hnone hcomment
    · exact hr

/-- Lines become absolute exactly when they are imports with one dot, as the parts in their order
with the package in front of the module, and every other line stays. Two lines that become the
same have the same parts, so that they differ in white space alone. -/
theorem absoluteLine_faithful {p : Text} (hne : p ≠ []) (hdot : p.head? ≠ some '.') :
    (∀ line,
      ((absolute? p line).isSome = true ↔ ∃ v, parse? line = some v ∧ v.dots = 1) ∧
      (∀ v, parse? line = some v → v.dots = 1 →
        absoluteLine p line = v.indent ++ "from ".toList ++ p ++
          (if v.module = [] then [] else '.' :: v.module) ++ " import ".toList ++ v.imported ++
          v.comment) ∧
      ((∀ v, parse? line = some v → v.dots ≠ 1) → absoluteLine p line = line)) ∧
    (∀ a b text, '\n' ∉ a → '\n' ∉ b → absolute? p a = some text → absolute? p b = some text →
      ∃ v, parse? a = some v ∧ parse? b = some v ∧ Spells a v ∧ Spells b v) := by
  refine ⟨fun line => ⟨⟨?_, ?_⟩, ?_, ?_⟩, ?_⟩
  · intro h
    obtain ⟨text, htext⟩ := Option.isSome_iff_exists.mp h
    obtain ⟨v, hv, hdots, -⟩ := absolute?_eq_some_iff.mp htext
    exact ⟨v, hv, hdots⟩
  · rintro ⟨v, hv, hdots⟩
    rw [absolute?_eq_some_of_parse? hne hdot hv hdots]
    rfl
  · intro v hv hdots
    rw [absoluteLine, absolute?_eq_some_of_parse? hne hdot hv hdots, Option.getD_some,
      absolute_eq_ending, ending]
    simp only [List.isEmpty_iff, List.append_assoc]
  · intro hother
    refine absoluteLine_eq_iff.mpr (Option.eq_none_iff_forall_ne_some.mpr fun text htext => ?_)
    obtain ⟨v, hv, hdots, -⟩ := absolute?_eq_some_iff.mp htext
    exact hother v hv hdots
  · intro a b text ha hb hta htb
    obtain ⟨v, hv, hvd, hvt, -⟩ := absolute?_eq_some_iff.mp hta
    obtain ⟨w, hw, hwd, hwt, -⟩ := absolute?_eq_some_iff.mp htb
    have hva := Grammar.of_parse? ha hv
    have hwb := Grammar.of_parse? hb hw
    obtain rfl := hva.absolute_injective ha hwb (hvd.trans hwd.symm) (hvt.symm.trans hwt)
    exact ⟨v, hv, hw, hva.spells, hwb.spells⟩

/-- The name of the package holds white space, a hash and the second keyword. Two lines of the
same parts become one line, and a line with two dots stays. -/
theorem absoluteLine_faithful_spaced :
    absoluteLine "my # import .pkg".toList "\tfrom .a.b \u00a0import\t x, y # z ".toList =
      "\tfrom my # import .pkg.a.b import x, y # z ".toList ∧
    absoluteLine "my # import .pkg".toList "from ..a import b".toList =
      "from ..a import b".toList ∧
    ∃ v, parse? "from . import  x".toList = some v ∧ parse? "from .\timport x \t".toList = some v ∧
      Spells "from . import  x".toList v ∧ Spells "from .\timport x \t".toList v := by
  obtain ⟨hlines, hsame⟩ :=
    absoluteLine_faithful (p := "my # import .pkg".toList) (by decide) (by decide)
  refine ⟨?_, ?_, ?_⟩
  · have hline := (hlines "\tfrom .a.b \u00a0import\t x, y # z ".toList).2.1
      ⟨"\t".toList, 1, "a.b".toList, "x, y".toList, " # z ".toList⟩ (by decide) rfl
    exact hline.trans (by decide)
  · refine (hlines _).2.2 fun v hv => ?_
    have hread : parse? "from ..a import b".toList =
        some ⟨[], 2, "a".toList, "b".toList, []⟩ := by decide
    rw [hread] at hv
    cases hv
    decide
  · exact hsame _ _ "from my # import .pkg import x".toList (by decide) (by decide) (by decide)
      (by decide)

end AbsoluteImports.ImportLine
