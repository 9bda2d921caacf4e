import AbsoluteImports.Proofs.ImportLine.Rendering

/-!
# Imports of a list in parentheses

A list in parentheses may go on in the next line, so such an import should be left alone. What
keeps it from being read is a search for the second keyword, one space and the parenthesis:
`parse?_parenthesis_iff` says exactly when a line gets past it. With any other white space between
the keyword and the parenthesis it does.
-/

namespace AbsoluteImports.ImportLine

/-! ### The beginning of an import -/

/-- The pieces of an import up to its names. -/
structure Beginning where
  indent : Text
  /-- White space behind the first keyword. -/
  lead : Text
  dots : Nat
  module : Text
  /-- White space before the second keyword. -/
  blanks : Text
  /-- White space behind the second keyword. -/
  gap : Text

namespace Beginning

/-- The text that begins in this way and goes on with `tail`. -/
def line (b : Beginning) (tail : Text) : Text :=
  b.indent ++ ("from".toList ++ (b.lead ++ (List.replicate b.dots '.' ++ (b.module ++ (b.blanks ++
    ("import".toList ++ (b.gap ++ tail)))))))

/-- A relative import by its pieces, with white space of any kind and amount. -/
structure Valid (b : Beginning) : Prop where
  indent : Text.allBlank b.indent = true
  lead : b.lead ≠ [] ∧ Text.allBlank b.lead = true
  dots : 0 < b.dots
  module : IsModule b.module
  blanks : b.blanks ≠ [] ∧ Text.allBlank b.blanks = true
  gap : Text.allBlank b.gap = true

theorem unique {a b : Beginning} {s t : Text} (ha : a.Valid) (hb : b.Valid)
    (hs : Text.Stops Text.isBlank s) (ht : Text.Stops Text.isBlank t) (h : a.line s = b.line t) :
    a = b ∧ s = t := by
  have hfrom : ∀ r : Text, Text.Stops Text.isBlank ("from".toList ++ r) :=
    fun r => Text.stops_cons.mpr (by decide)
  have himport : ∀ r : Text, Text.Stops Text.isBlank ("import".toList ++ r) :=
    fun r => Text.stops_cons.mpr (by decide)
  have hrun : ∀ n : Nat, ∀ c ∈ List.replicate n '.', (c == '.') = true :=
    fun n c hc => beq_iff_eq.mpr (List.eq_of_mem_replicate hc)
  have hdot : ∀ {n : Nat} (r : Text), 0 < n →
      Text.Stops Text.isBlank (List.replicate n '.' ++ r) := by
    intro n r hn
    refine (Text.stops_append (by simp; omega)).mpr (Text.stops_of_all (fun c hc => ?_) (hrun n))
    rw [beq_iff_eq.mp hc]
    decide
  -- each piece is a run of one kind of characters that the next piece does not go on with
  obtain ⟨hindent, h⟩ := Text.run_unique (Text.allBlank_iff.mp ha.indent) (hfrom _)
    (Text.allBlank_iff.mp hb.indent) (hfrom _) h
  obtain ⟨hlead, h⟩ := Text.run_unique (Text.allBlank_iff.mp ha.lead.2) (hdot _ ha.dots)
    (Text.allBlank_iff.mp hb.lead.2) (hdot _ hb.dots) (List.append_cancel_left h)
  obtain ⟨hdots, h⟩ := Text.run_unique (p := (· == '.')) (hrun _)
    (stops_isDot ha.module ha.blanks.1 ha.blanks.2 _) (hrun _)
    (stops_isDot hb.module hb.blanks.1 hb.blanks.2 _) h
  obtain ⟨hmodule, h⟩ := Text.run_unique ha.module.isNameRest
    (stops_isNameRest ha.blanks.1 ha.blanks.2 _) hb.module.isNameRest
    (stops_isNameRest hb.blanks.1 hb.blanks.2 _) h
  obtain ⟨hblanks, h⟩ := Text.run_unique (Text.allBlank_iff.mp ha.blanks.2) (himport _)
    (Text.allBlank_iff.mp hb.blanks.2) (himport _) h
  obtain ⟨hgap, h⟩ := Text.run_unique (Text.allBlank_iff.mp ha.gap) hs
    (Text.allBlank_iff.mp hb.gap) ht (List.append_cancel_left h)
  have hcount : a.dots = b.dots := by simpa using congrArg List.length hdots
  refine ⟨?_, h⟩
  calc a = ⟨a.indent, a.lead, a.dots, a.module, a.blanks, a.gap⟩ := rfl
    _ = ⟨b.indent, b.lead, b.dots, b.module, b.blanks, b.gap⟩ := by
      rw [hindent, hlead, hcount, hmodule, hblanks, hgap]
    _ = b := rfl

/-- What reading finds before the names is a beginning with one space behind the first keyword
and some white space behind the second. -/
theorem exists_of_opens {line tail : Text} {v : ImportLine} (h : Opens line v tail) :
    ∃ b : Beginning, b.Valid ∧ line = b.line tail ∧ b.lead = [' '] ∧ b.gap ≠ [] ∧
      b.dots = v.dots := by
  obtain ⟨blanks, gap, heq, hblanks, hgap⟩ := h.parts
  refine ⟨⟨v.indent, [' '], v.dots, v.module, blanks, gap⟩,
    ⟨h.indent, ⟨by simp, rfl⟩, h.dots, h.module, hblanks, hgap.2⟩, heq, rfl, hgap.1, rfl⟩

theorem opens {b : Beginning} (hb : b.Valid) (hlead : b.lead = [' ']) (hgap : b.gap ≠ [])
    {tail : Text} (htail : Text.Stops Text.isBlank tail) (imported comment : Text) :
    Opens (b.line tail) ⟨b.indent, b.dots, b.module, imported, comment⟩ tail := by
  refine ⟨hb.indent, hb.dots, hb.module, ⟨b.blanks, b.gap, ?_, hb.blanks, hgap, hb.gap⟩, htail⟩
  rw [line, hlead]
  rfl

/-- A line that is read has the one beginning that reading allows, and names that can be cut. -/
theorem of_parse? {b : Beginning} (hb : b.Valid) {tail : Text}
    (htail : Text.Stops Text.isBlank tail) {v : ImportLine} (h : parse? (b.line tail) = some v) :
    b.lead = [' '] ∧ b.gap ≠ [] ∧ v.dots = b.dots ∧ spansLines (b.line tail) = false ∧
      (takeImported tail).isSome = true := by
  obtain ⟨hspan, tail', names, hopens, hnames, -⟩ := opens_of_parse? h
  obtain ⟨a, ha, hline, hlead, hgap, hdots⟩ := exists_of_opens hopens
  obtain ⟨rfl, rfl⟩ := unique hb ha htail hopens.tail hline
  exact ⟨hlead, hgap, hdots.symm, hspan, by rw [hnames]; rfl⟩

end Beginning

/-! ### Names up to the end of a text -/

/-- Where names may end: white space, or a comment on one line with white space behind it. -/
def IsTail (s : Text) : Prop :=
  Text.allBlank s = true ∨
    ∃ w r rest, s = w ++ '#' :: (r ++ rest) ∧ Text.allBlank w = true ∧ '\n' ∉ r ∧
      Text.allBlank rest = true

/-- Names that stay on one line stand in front of an end. -/
def Finishes (s : Text) : Prop := ∃ names tail, s = names ++ tail ∧ '\n' ∉ names ∧ IsTail tail

theorem closes_iff {s : Text} :
    closes s = true ↔ ∃ r rest, s = r ++ rest ∧ '\n' ∉ r ∧ Text.allBlank rest = true := by
  constructor
  · intro h
    refine ⟨_, _, List.takeWhile_append_dropWhile.symm, fun hmem => ?_, h⟩
    have hfeed := Text.of_mem_takeWhile (p := (· != '\n')) hmem
    cases hfeed
  · rintro ⟨r, rest, rfl, hr, hrest⟩
    have hall : ∀ c ∈ r, (c != '\n') = true := fun c hc => bne_iff_ne.mpr fun he => hr (he ▸ hc)
    rw [closes, List.dropWhile_append_of_pos hall]
    have hblank := Text.allBlank_iff.mp hrest
    exact Text.allBlank_iff.mpr fun c hc => hblank c ((List.dropWhile_sublist _).subset hc)

theorem isTail_iff {s : Text} :
    IsTail s ↔ Text.allBlank s = true ∨ (comment? s).isSome = true := by
  rw [comment?_isSome, IsTail]
  refine or_congr_right ⟨?_, ?_⟩
  · rintro ⟨w, r, rest, rfl, hw, hr, hrest⟩
    exact ⟨w, r ++ rest, rfl, hw, closes_iff.mpr ⟨r, rest, rfl, hr, hrest⟩⟩
  · rintro ⟨w, s, rfl, hw, hclosed⟩
    obtain ⟨r, rest, rfl, hr, hrest⟩ := closes_iff.mp hclosed
    exact ⟨w, r, rest, rfl, hw, hr, hrest⟩

theorem finishes_cons {c : Char} {s : Text} :
    Finishes (c :: s) ↔ IsTail (c :: s) ∨ (c ≠ '\n' ∧ Finishes s) := by
  constructor
  · rintro ⟨names, tail, heq, hnames, htail⟩
    cases names with
    | nil =>
      rw [List.nil_append] at heq
      exact .inl (heq ▸ htail)
    | cons d names =>
      obtain ⟨rfl, rfl⟩ := List.cons.inj heq
      rw [List.mem_cons, not_or] at hnames
      exact .inr ⟨Ne.symm hnames.1, names, tail, rfl, hnames.2, htail⟩
  · rintro (htail | ⟨hc, names, tail, rfl, hnames, htail⟩)
    · exact ⟨[], c :: s, rfl, List.not_mem_nil, htail⟩
    · exact ⟨c :: names, tail, rfl, by simp [hnames, Ne.symm hc], htail⟩

theorem takeImported_isSome_iff {s : Text} : (takeImported s).isSome = true ↔ Finishes s := by
  induction s with
  | nil => exact iff_of_true rfl ⟨[], [], rfl, List.not_mem_nil, .inl rfl⟩
  | cons c s ih =>
    rw [finishes_cons, isTail_iff, takeImported_cons]
    cases hcomment : comment? (c :: s) with
    | some k => simp
    | none =>
      by_cases hblank : Text.allBlank (c :: s) = true
      · simp [hblank]
      · by_cases hc : c = '\n'
        · simp [hc]
        · simp [hblank, hc, ih]

theorem takeImported_parenthesis (s : Text) :
    takeImported ('(' :: s) = (takeImported s).map fun (w, k) => ('(' :: w, k) := by
  rw [takeImported_cons]
  rfl

/-! ### Lists in parentheses -/

namespace Beginning

variable {b : Beginning} {rest : Text}

theorem stops_parenthesis (s : Text) : Text.Stops Text.isBlank ('(' :: s) :=
  Text.stops_cons.mpr (by decide)

theorem parse?_list_iff (hb : b.Valid) :
    (parse? (b.line ('(' :: rest))).isSome = true ↔
      b.lead = [' '] ∧ b.gap ≠ [] ∧ Finishes rest ∧ spansLines (b.line ('(' :: rest)) = false := by
  rw [← takeImported_isSome_iff]
  constructor
  · intro h
    obtain ⟨v, hv⟩ := Option.isSome_iff_exists.mp h
    obtain ⟨hlead, hgap, -, hspan, hnames⟩ := of_parse? hb (stops_parenthesis rest) hv
    rw [takeImported_parenthesis, Option.isSome_map] at hnames
    exact ⟨hlead, hgap, hnames, hspan⟩
  · rintro ⟨hlead, hgap, hnames, hspan⟩
    obtain ⟨⟨n, k⟩, hn⟩ := Option.isSome_iff_exists.mp hnames
    have hcut : takeImported ('(' :: rest) = some ('(' :: n, k) := by
      rw [takeImported_parenthesis, hn]
      rfl
    have hopens := b.opens hb hlead hgap (stops_parenthesis rest) (Text.trimRight ('(' :: n)) k
    rw [parse?_of_opens hspan hopens hcut rfl (trimRight_ne_nil (c := '(') (by decide))]
    rfl

theorem infix_of_space (hgap : b.gap = [' ']) :
    "import (".toList <:+: b.line ('(' :: rest) := by
  refine ⟨b.indent ++ ("from".toList ++ (b.lead ++ (List.replicate b.dots '.' ++
    (b.module ++ b.blanks)))), rest, ?_⟩
  rw [line, hgap]
  simp only [List.append_assoc]
  rfl

theorem absolute?_list_iff (hb : b.Valid) {p : Text} (hne : p ≠ []) (hdot : p.head? ≠ some '.') :
    absolute? p (b.line ('(' :: rest)) ≠ none ↔
      b.dots = 1 ∧ (parse? (b.line ('(' :: rest))).isSome = true := by
  rw [Option.ne_none_iff_exists']
  constructor
  · rintro ⟨text, htext⟩
    obtain ⟨v, hv, hdots, -⟩ := absolute?_eq_some_iff.mp htext
    obtain ⟨-, -, hsame, -⟩ := of_parse? hb (stops_parenthesis rest) hv
    exact ⟨hsame.symm.trans hdots, by rw [hv]; rfl⟩
  · rintro ⟨hdots, hsome⟩
    obtain ⟨v, hv⟩ := Option.isSome_iff_exists.mp hsome
    obtain ⟨-, -, hsame, -⟩ := of_parse? hb (stops_parenthesis rest) hv
    exact ⟨_, absolute?_eq_some_of_parse? hne hdot hv (hsame.trans hdots)⟩

end Beginning

/-- An import whose names begin with an open parenthesis, and stay on one line, is read exactly
when the second keyword with one space and a parenthesis behind it is nowhere in the line, no
parenthesis is open at the end, and no backslash is there. So it is left alone with no white space
or one space behind the keyword, but otherwise it is changed like any import with one dot. -/
theorem parse?_parenthesis_iff {b : Beginning} (hb : b.Valid) {line : Text} (rest : Text)
    (hline : line = b.line ('(' :: rest)) :
    ((parse? line).isSome = true ↔
      b.lead = [' '] ∧ b.gap ≠ [] ∧ Finishes rest ∧ '\\' ∉ line ∧ ¬"import (".toList <:+: line ∧
        ∀ before after, line = before ++ '(' :: after → Text.allBlank after = false) ∧
    (b.gap = [] ∨ b.gap = [' '] ∨ Text.allBlank rest = true → parse? line = none) ∧
    (∀ p, parse? line = none → absoluteLine p line = line) ∧
    (∀ p, p ≠ [] → p.head? ≠ some '.' →
      (absoluteLine p line ≠ line ↔ b.dots = 1 ∧ (parse? line).isSome = true)) := by
  subst hline
  refine ⟨?_, ?_, ?_, ?_⟩
  · rw [← spansLines_eq_false_iff]
    exact b.parse?_list_iff hb
  · intro h
    refine Option.not_isSome_iff_eq_none.mp fun hsome => ?_
    obtain ⟨-, hgap, -, hspan⟩ := (b.parse?_list_iff hb).mp hsome
    obtain ⟨-, hlist, hopen⟩ := spansLines_eq_false_iff.mp hspan
    rcases h with hnone | hspace | hblank
    · exact hgap hnone
    · exact hlist (b.infix_of_space hspace)
    · have hend := hopen (b.line []) rest (by simp [Beginning.line])
      rw [hblank] at hend
      cases hend
  · intro p h
    refine absoluteLine_eq_iff.mpr ?_
    simp [absolute?, h]
  · intro p hne hdot
    rw [Ne, absoluteLine_eq_iff]
    exact b.absolute?_list_iff hb hne hdot

def tabbed : Beginning := ⟨[], [' '], 1, "foo".toList, [' '], "\t ".toList⟩

theorem tabbed_valid : tabbed.Valid := by
  have hname : "oo".toList.all isNameRest = true := by decide
  exact ⟨by decide, by decide, by decide,
    .inr ⟨'f', "oo".toList, rfl, by decide, List.all_eq_true.mp hname⟩, by decide, by decide⟩

/-- The tab hides the parenthesis of a list that goes on in the next line. An open parenthesis
alone is seen. -/
theorem parse?_parenthesis_tabbed :
    (parse? "from .foo import\t (a, # b".toList).isSome = true ∧
    absoluteLine "mypkg".toList "from .foo import\t (a, # b".toList ≠
      "from .foo import\t (a, # b".toList ∧
    absoluteLine "mypkg".toList "from .foo import\t ( ".toList =
      "from .foo import\t ( ".toList := by
  obtain ⟨hread, -, -, hchanged⟩ := parse?_parenthesis_iff tabbed_valid "a, # b".toList rfl
  obtain ⟨-, hleft, hstays, -⟩ := parse?_parenthesis_iff tabbed_valid " ".toList rfl
  have hsome := hread.mpr ⟨rfl, by decide, ⟨"a, # b".toList, [], rfl, by decide, .inl rfl⟩,
    spansLines_eq_false_iff.mp (by decide)⟩
  exact ⟨hsome, (hchanged _ (by decide) (by decide)).mpr ⟨rfl, hsome⟩,
    hstays _ (hleft (.inr (.inr (by decide))))⟩

/-- Two spaces before the parenthesis: the line is an import with a list in parentheses, and is
changed. With one space it stays. -/
theorem parse?_parenthesis_spaced :
    (∃ b : Beginning, b.Valid ∧ b.gap = "  ".toList ∧
      "from .foo import  (a, b)".toList = b.line "(a, b)".toList) ∧
    (parse? "from .foo import  (a, b)".toList).isSome = true ∧
    absolute? "mypkg".toList "from .foo import  (a, b)".toList =
      some "from mypkg.foo import (a, b)".toList ∧
    absolute? "mypkg".toList "from .foo import (a, b)".toList = none := by
  refine ⟨⟨{ tabbed with gap := "  ".toList }, { tabbed_valid with gap := by decide }, rfl, rfl⟩,
    by decide⟩

end AbsoluteImports.ImportLine
