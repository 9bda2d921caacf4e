import AbsoluteImports.Glob.Match
import Mathlib.Tactic.SplitIfs

/-!
# Steady patterns

A well-formed pattern can still turn out to be malformed while a name is matched, for two reasons.
Braces are cut at braces and commas without regard to classes, so a class may be cut in two. And
when a character of a negated class excludes a name, what follows that character is judged as if it
stood outside the class. A steady pattern is a well-formed one in which neither can happen: no class
between braces holds a brace or a comma, and no negated class holds a brace or an opening bracket
behind its first character, unless a backslash stands before it.

Steadiness is kept by everything that a match does to a pattern: an element is passed
(`exists_element`), or braces are replaced by one of their alternatives (`closeBrace?_of_steadyFrom`).
-/

namespace AbsoluteImports.Glob

/-! ### Reading a pattern -/

/-- Where a reader of a pattern stands. -/
inductive Spot where
  | outside
  /-- Behind the bracket that opens a class. -/
  | opened
  /-- Behind the mark of a negated class. -/
  | negated
  /-- Behind a character of a class, which may be a negated one. -/
  | inside (negated : Bool)
  deriving DecidableEq, Repr

/-- Whether a character of a class would be taken for one of the braces around the class. -/
def cutsBraces (depth : Nat) (c : Char) : Bool :=
  depth != 0 && (c == '{' || c == '}' || c == ',')

/-- Whether a character has a meaning of its own outside classes. -/
def opensOrCloses (c : Char) : Bool := c == '[' || c == '{' || c == '}'

/-- The spot behind a character of a class. -/
def Spot.past : Spot → Spot
  | outside => outside
  | opened => inside false
  | negated => inside true
  | inside b => inside b

/-- One character, with the number of open braces; there is no next spot when the pattern is not
steady. -/
def Spot.read (s : Spot) (depth : Nat) (c : Char) : Option (Spot × Nat) :=
  match s with
  | outside =>
    if c = '{' then some (outside, depth + 1)
    else if c = '}' then if depth = 0 then none else some (outside, depth - 1)
    else if c = '[' then some (opened, depth)
    else some (outside, depth)
  | opened =>
    if c = ']' || cutsBraces depth c then none
    else if c = '^' || c = '!' then some (negated, depth)
    else some (inside false, depth)
  | negated => if c = ']' || cutsBraces depth c then none else some (inside true, depth)
  | inside b =>
    if c = ']' then some (outside, depth)
    else if cutsBraces depth c || b && opensOrCloses c then none
    else some (inside b, depth)

/-- Whether the rest of a pattern is steady, from a spot with a number of open braces. -/
def steadyFrom (s : Spot) (depth : Nat) : Text → Bool
  | [] => s == .outside && depth == 0
  | ['\\'] => false
  | '\\' :: _ :: r => steadyFrom s.past depth r
  | c :: r =>
    match s.read depth c with
    | some (s', depth') => steadyFrom s' depth' r
    | none => false

/-- Whether a pattern is steady. -/
def steady (pattern : Text) : Bool := steadyFrom .outside 0 pattern

section Reading

variable {s s' : Spot} {depth depth' : Nat} {c : Char} {r : Text}

@[simp] theorem steadyFrom_escape (s : Spot) (depth : Nat) (c : Char) (r : Text) :
    steadyFrom s depth ('\\' :: c :: r) = steadyFrom s.past depth r := by
  rw [steadyFrom]

theorem steadyFrom_cons (hc : c ≠ '\\') :
    steadyFrom s depth (c :: r) =
      match s.read depth c with
      | some (s', depth') => steadyFrom s' depth' r
      | none => false := by
  rw [steadyFrom]
  · rintro rfl
    exact absurd rfl hc
  · rintro d r' rfl
    exact absurd rfl hc

theorem steadyFrom_of_read (hc : c ≠ '\\') (h : s.read depth c = some (s', depth')) :
    steadyFrom s depth (c :: r) = steadyFrom s' depth' r := by
  rw [steadyFrom_cons hc, h]

theorem read_of_steadyFrom (hc : c ≠ '\\') (h : steadyFrom s depth (c :: r) = true) :
    ∃ s' depth', s.read depth c = some (s', depth') ∧ steadyFrom s' depth' r = true := by
  rw [steadyFrom_cons hc] at h
  split at h
  · rename_i s' depth' hread
    exact ⟨s', depth', hread, h⟩
  · cases h

/-- The cases in which patterns are read: an escaped character is taken with its backslash. -/
theorem escape_induction {motive : Text → Prop} (nil : motive [])
    (lone : motive ['\\']) (escape : ∀ c r, motive r → motive ('\\' :: c :: r))
    (cons : ∀ c r, c ≠ '\\' → motive r → motive (c :: r)) (r : Text) : motive r := by
  suffices h : ∀ n, ∀ r : Text, r.length ≤ n → motive r from h r.length r (Nat.le_refl _)
  intro n
  induction n with
  | zero =>
    intro r hr
    rw [List.length_eq_zero_iff.mp (Nat.le_zero.mp hr)]
    exact nil
  | succ n ih =>
    intro r hr
    cases r with
    | nil => exact nil
    | cons c r =>
      rw [List.length_cons] at hr
      by_cases hc : c = '\\'
      · subst hc
        cases r with
        | nil => exact lone
        | cons d r =>
          rw [List.length_cons] at hr
          exact escape d r (ih r (by omega))
      · exact cons c r hc (ih r (by omega))

end Reading

/-! ### Steady patterns are well formed -/

/-- What well-formedness says of the rest of a pattern that is read from a spot. -/
def Spot.Admits (depth : Nat) (r : Text) : Spot → Prop
  | outside => isValidFrom false depth r = true
  | opened => isValidFrom false depth ('[' :: r) = true
  | negated => r.head? ≠ some ']' ∧ isValidFrom true depth r = true
  | inside _ => isValidFrom true depth r = true

section WellFormed

variable {s s' : Spot} {depth depth' : Nat} {c : Char} {r : Text}

@[simp] theorem isValidFrom_escape (inClass : Bool) (depth : Nat) (c : Char) (r : Text) :
    isValidFrom inClass depth ('\\' :: c :: r) = isValidFrom inClass depth r := by
  rw [isValidFrom]

@[simp] theorem isValidFrom_class_end (depth : Nat) (r : Text) :
    isValidFrom true depth (']' :: r) = isValidFrom false depth r := by
  cases r <;> simp [isValidFrom]

theorem isValidFrom_class (hc : c ≠ '\\') (hend : c ≠ ']') :
    isValidFrom true depth (c :: r) = isValidFrom true depth r := by
  cases r <;> simp [isValidFrom, hc, bne_iff_ne.mpr hend]

theorem isValidFrom_cons (hc : c ≠ '\\') (hbrace : c ≠ '{') (hclose : c ≠ '}') (hclass : c ≠ '[') :
    isValidFrom false depth (c :: r) = isValidFrom false depth r := by
  cases r <;> simp [isValidFrom, hc, hbrace, hclose, hclass]

@[simp] theorem isValidFrom_brace (depth : Nat) (r : Text) :
    isValidFrom false depth ('{' :: r) = isValidFrom false (depth + 1) r := by
  cases r <;> simp [isValidFrom]

@[simp] theorem isValidFrom_close (depth : Nat) (r : Text) :
    isValidFrom false depth ('}' :: r) = (depth != 0 && isValidFrom false (depth - 1) r) := by
  cases r <;> simp [isValidFrom]

theorem isValidFrom_open (depth : Nat) (d : Char) (r : Text) :
    isValidFrom false depth ('[' :: d :: r) =
      if d = '^' || d = '!' then r.head? != some ']' && isValidFrom true depth r
      else d != ']' && isValidFrom true depth (d :: r) := by
  rw [isValidFrom] <;> simp

theorem Spot.Admits.escape (h : s.past.Admits depth r) (c : Char) :
    s.Admits depth ('\\' :: c :: r) := by
  cases s with
  | outside => simpa [Spot.Admits, Spot.past] using h
  | opened => simpa [Spot.Admits, Spot.past, isValidFrom_open] using h
  | negated => simpa [Spot.Admits, Spot.past] using h
  | inside b => simpa [Spot.Admits, Spot.past] using h

theorem Spot.Admits.cons (hc : c ≠ '\\') (hread : s.read depth c = some (s', depth'))
    (h : s'.Admits depth' r) : s.Admits depth (c :: r) := by
  cases s with
  | outside =>
    simp only [Spot.read] at hread
    split_ifs at hread with hbrace hclose hzero hclass <;> cases hread
    · subst hbrace
      simpa [Spot.Admits] using h
    · subst hclose
      simpa [Spot.Admits, hzero] using h
    · subst hclass
      exact h
    · simpa [Spot.Admits, isValidFrom_cons hc hbrace hclose hclass] using h
  | opened =>
    simp only [Spot.read, Bool.or_eq_true, decide_eq_true_eq] at hread
    split_ifs at hread with hbad hmark <;> cases hread
    · simpa [Spot.Admits, isValidFrom_open, hmark] using h
    · simp only [not_or] at hbad hmark
      simpa [Spot.Admits, isValidFrom_open, hmark, isValidFrom_class hc hbad.1, hbad.1] using h
  | negated =>
    simp only [Spot.read, Bool.or_eq_true, decide_eq_true_eq] at hread
    split_ifs at hread with hbad
    cases hread
    simp only [not_or] at hbad
    simpa [Spot.Admits, isValidFrom_class hc hbad.1, hbad.1] using h
  | inside b =>
    simp only [Spot.read] at hread
    split_ifs at hread with hend hbad <;> cases hread
    · subst hend
      simpa [Spot.Admits] using h
    · simpa [Spot.Admits, isValidFrom_class hc hend] using h

theorem Spot.admits_of_steadyFrom (r : Text) :
    ∀ {s : Spot} {depth : Nat}, steadyFrom s depth r = true → s.Admits depth r := by
  induction r using escape_induction with
  | nil =>
    intro s depth h
    simp only [steadyFrom, Bool.and_eq_true, beq_iff_eq] at h
    obtain ⟨rfl, rfl⟩ := h
    rfl
  | lone =>
    intro s depth h
    simp [steadyFrom] at h
  | escape c r ih =>
    intro s depth h
    rw [steadyFrom_escape] at h
    exact (ih h).escape c
  | cons c r hc ih =>
    intro s depth h
    obtain ⟨s', depth', hread, hrest⟩ := read_of_steadyFrom hc h
    exact (ih hrest).cons hc hread

theorem isValid_of_steady {r : Text} (h : steady r = true) : isValid r = true :=
  Spot.admits_of_steadyFrom r h

end WellFormed

/-! ### Braces in steady patterns -/

/-- The number of open braces behind a character, as the braces are cut. -/
def depthPast (depth : Nat) (c : Char) : Nat :=
  if c = '{' then depth + 1 else if c = '}' then depth - 1 else depth

section Braces

variable {s s' : Spot} {e depth : Nat} {c : Char} {r : Text}

theorem closeBrace?_cons (hc : c ≠ '\\') :
    closeBrace? e (c :: r) =
      if c = '}' && e == 0 then some ([], r)
      else (closeBrace? (depthPast e c) r).map fun (w, k) => (c :: w, k) := by
  rw [closeBrace?]
  · rfl
  · rintro rfl
    exact absurd rfl hc
  · rintro d r' rfl
    exact absurd rfl hc

theorem alternatives_cons (hc : c ≠ '\\') :
    alternatives e (c :: r) =
      if c = ',' && e == 0 then [] :: alternatives e r
      else pushFirst [c] (alternatives (depthPast e c) r) := by
  rw [alternatives]
  · rfl
  · rintro rfl
    exact absurd rfl hc
  · rintro d r' rfl
    exact absurd rfl hc

/-- Between braces, steady reading and the cutting of braces count the same braces: the character
closes the outermost ones, or it is read in the same way with one pair of braces less around it. -/
theorem Spot.read_between (h : s.read (e + 1) c = some (s', depth)) :
    c = '}' ∧ e = 0 ∧ s = .outside ∧ s' = .outside ∧ depth = 0 ∨
      ¬ (c = '}' ∧ e = 0) ∧ depth = depthPast e c + 1 ∧ s.read e c = some (s', depthPast e c) ∧
        (c = ',' → s = .outside ∧ s' = .outside) := by
  cases s <;> simp only [Spot.read, cutsBraces, depthPast] at h ⊢ <;> grind

/-- The braces around a steady rest are found, and each of their alternatives can take their place:
the first continues what stands before it, the others begin anew. -/
theorem closeBrace?_of_steadyFrom (r : Text) :
    ∀ {s : Spot} {e : Nat}, steadyFrom s (e + 1) r = true →
      ∃ inside after, closeBrace? e r = some (inside, after) ∧ steady after = true ∧
        ∃ first others, alternatives e inside = first :: others ∧
          steadyFrom s e (first ++ after) = true ∧
          ∀ alternative ∈ others, steady (alternative ++ after) = true := by
  induction r using escape_induction with
  | nil =>
    intro s e h
    simp [steadyFrom] at h
  | lone =>
    intro s e h
    simp [steadyFrom] at h
  | escape c r ih =>
    intro s e h
    rw [steadyFrom_escape] at h
    obtain ⟨inside, after, hclose, hafter, first, others, halt, hfirst, hothers⟩ := ih h
    refine ⟨'\\' :: c :: inside, after, by rw [closeBrace?, hclose]; rfl, hafter,
      '\\' :: c :: first, others, by rw [alternatives, halt]; rfl, ?_, hothers⟩
    simpa using hfirst
  | cons c r hc ih =>
    intro s e h
    obtain ⟨s', depth, hread, hrest⟩ := read_of_steadyFrom hc h
    rcases Spot.read_between hread with ⟨rfl, rfl, rfl, rfl, rfl⟩ | ⟨hinner, rfl, hlower, hcomma⟩
    · exact ⟨[], r, by simp [closeBrace?_cons hc], hrest, [], [], rfl, hrest, by simp⟩
    · obtain ⟨inside, after, hclose, hafter, first, others, halt, hfirst, hothers⟩ := ih hrest
      refine ⟨c :: inside, after, ?_, hafter, ?_⟩
      · rw [closeBrace?_cons hc, hclose, if_neg (by simpa using hinner)]
        rfl
      · rw [alternatives_cons hc]
        by_cases hcut : c = ',' ∧ e = 0
        · -- A comma outside inner braces: what stood before it ends where the braces end.
          obtain ⟨rfl, rfl⟩ := hcut
          obtain ⟨rfl, rfl⟩ := hcomma rfl
          refine ⟨[], first :: others, by rw [← halt]; rfl, hafter, ?_⟩
          exact List.forall_mem_cons.mpr ⟨hfirst, hothers⟩
        · rw [if_neg (by simpa using hcut), halt]
          refine ⟨c :: first, others, rfl, ?_, hothers⟩
          rwa [List.cons_append, steadyFrom_of_read hc hlower]

end Braces

/-! ### Classes in steady patterns -/

section Classes

variable {s s' : Spot} {depth depth' : Nat} {x c : Char} {last : Option Char} {r : Text}

@[simp] theorem afterClass?_escape (c : Char) (r : Text) :
    afterClass? ('\\' :: c :: r) = afterClass? r := by
  rw [afterClass?]

theorem afterClass?_cons (hc : c ≠ '\\') :
    afterClass? (c :: r) = if c = ']' then some r else afterClass? r := by
  rw [afterClass?]
  · rintro rfl
    exact absurd rfl hc
  · rintro d r' rfl
    exact absurd rfl hc

theorem afterClass?_searchClass (x : Char) (last : Option Char) (r : Text) :
    afterClass? (searchClass x last r).rest = afterClass? r := by
  fun_induction searchClass x last r <;> grind [afterClass?]

theorem searchClass_suffix (x : Char) (last : Option Char) (r : Text) :
    (searchClass x last r).rest <:+ r := by
  fun_induction searchClass x last r <;> grind [List.suffix_cons_iff]

theorem searchClass_not_found (h : (searchClass x last r).found = false) :
    (searchClass x last r).rest = [] ∨ ∃ after, (searchClass x last r).rest = ']' :: after := by
  fun_induction searchClass x last r <;> grind

theorem Spot.read_class (hs : s ≠ .outside) (h : s.read depth c = some (s', depth')) :
    depth' = depth ∧ (c = ']' ∧ s' = .outside ∨ c ≠ ']' ∧ s' ≠ .outside) := by
  cases s <;> simp only [Spot.read] at h <;> grind

theorem Spot.read_negated (hs : s.past = .inside true) (hc : c ≠ ']')
    (h : s.read depth c = some (s', depth')) : s' = .inside true ∧ depth' = depth := by
  cases s <;> simp only [Spot.read, Spot.past] at h hs <;> grind

theorem steadyFrom_negated_cons (hs : s.past = .inside true) (hend : c ≠ ']')
    (hescape : ∀ d r', c = '\\' → r = d :: r' → False)
    (h : steadyFrom s depth (c :: r) = true) : steadyFrom (.inside true) depth r = true := by
  by_cases hc : c = '\\'
  · cases r with
    | nil =>
      subst hc
      simp [steadyFrom] at h
    | cons d r' => exact (hescape d r' hc rfl).elim
  · obtain ⟨s', depth', hread, hrest⟩ := read_of_steadyFrom hc h
    obtain ⟨rfl, rfl⟩ := Spot.read_negated hs hend hread
    exact hrest

theorem steadyFrom_searchClass (x : Char) (last : Option Char) (r : Text) :
    ∀ {s : Spot}, s.past = .inside true → steadyFrom s depth r = true →
      (searchClass x last r).found = true →
      steadyFrom (.inside true) depth (searchClass x last r).rest = true := by
  fun_induction searchClass x last r with
  | case1 => simp
  | case2 a r =>
    intro s hs h _
    exact steadyFrom_negated_cons hs (by decide) (by simp) h
  | case3 a e r hrange =>
    intro s hs h _
    simpa [Spot.past] using steadyFrom_negated_cons hs (by decide) (by simp) h
  | case4 a e r hrange ih =>
    intro s hs h
    have h' := steadyFrom_negated_cons hs (by decide) (by simp) h
    rw [steadyFrom_escape] at h'
    exact ih rfl h'
  | case5 a d r hend hescape hrange =>
    intro s hs h _
    have h' := steadyFrom_negated_cons hs (by decide) (by simp) h
    exact steadyFrom_negated_cons rfl hend hescape h'
  | case6 a d r hend hescape hrange ih =>
    intro s hs h
    have h' := steadyFrom_negated_cons hs (by decide) (by simp) h
    exact ih rfl (steadyFrom_negated_cons rfl hend hescape h')
  | case7 last r =>
    intro s hs h _
    rwa [steadyFrom_escape, hs] at h
  | case8 last d r hx ih =>
    intro s hs h
    rw [steadyFrom_escape, hs] at h
    exact ih rfl h
  | case9 => simp
  | case10 last r _ _ _ hescape hend =>
    intro s hs h _
    exact steadyFrom_negated_cons hs hend hescape h
  | case11 last c r _ _ _ hescape hend hx ih =>
    intro s hs h
    exact ih rfl (steadyFrom_negated_cons hs hend hescape h)

/-- The rest of a negated class can be read as if it stood outside. -/
theorem steadyFrom_outside_of_negated (r : Text) :
    steadyFrom (.inside true) depth r = true → steadyFrom .outside depth r = true := by
  induction r using escape_induction with
  | nil =>
    intro h
    simp [steadyFrom] at h
  | lone =>
    intro h
    simp [steadyFrom] at h
  | escape c r ih =>
    intro h
    rw [steadyFrom_escape] at h ⊢
    exact ih h
  | cons c r hc ih =>
    intro h
    obtain ⟨s', depth', hread, hrest⟩ := read_of_steadyFrom hc h
    have hplain : Spot.read .outside depth c = some (.outside, depth) := by
      simp only [Spot.read] at hread ⊢
      grind [opensOrCloses]
    rw [steadyFrom_of_read hc hplain]
    by_cases hend : c = ']'
    · subst hend
      cases hread
      exact hrest
    · obtain ⟨rfl, rfl⟩ := Spot.read_negated rfl hend hread
      exact ih hrest

/-- A steady class is closed, and the pattern goes on behind it whatever follows. -/
theorem exists_class (r : Text) :
    ∀ {s : Spot}, s ≠ .outside → steadyFrom s depth r = true →
      ∃ content after, r = content ++ after ∧ ∀ y,
        afterClass? (content ++ y) = some y ∧
        steadyFrom s depth (content ++ y) = steadyFrom .outside depth y := by
  induction r using escape_induction with
  | nil =>
    intro s hs h
    simp [steadyFrom, hs] at h
  | lone =>
    intro s hs h
    simp [steadyFrom] at h
  | escape c r ih =>
    intro s hs h
    rw [steadyFrom_escape] at h
    obtain ⟨content, after, rfl, hcontent⟩ := ih (by cases s <;> simp_all [Spot.past]) h
    exact ⟨'\\' :: c :: content, after, rfl, by simpa using hcontent⟩
  | cons c r hc ih =>
    intro s hs h
    obtain ⟨s', depth', hread, hrest⟩ := read_of_steadyFrom hc h
    obtain ⟨rfl, ⟨rfl, rfl⟩ | ⟨hend, hs'⟩⟩ := Spot.read_class hs hread
    · exact ⟨[']'], r, rfl, fun y => ⟨rfl, steadyFrom_of_read hc hread⟩⟩
    · obtain ⟨content, after, rfl, hcontent⟩ := ih hs' hrest
      refine ⟨c :: content, after, rfl, fun y => ?_⟩
      rw [List.cons_append, afterClass?_cons hc, if_neg hend, steadyFrom_of_read hc hread]
      exact hcontent y

end Classes

/-! ### The elements of a pattern -/

/-- What follows the first element of a pattern; braces are not an element. -/
def behind? : Text → Option Text
  | [] => none
  | ['\\'] => none
  | '\\' :: _ :: r => some r
  | c :: r => if c = '{' then none else if c = '[' then afterClass? r else some r

/-- A character, an escaped character or a class: whatever follows it, it is passed as a whole and
does not change what is steady. -/
structure Element (e : Text) : Prop where
  ne_nil : e ≠ []
  behind (y : Text) : behind? (e ++ y) = some y
  steady (y : Text) : steady (e ++ y) = steady y

section Elements

variable {a b : Text} {c : Char}

theorem behind?_cons (hc : c ≠ '\\') :
    behind? (c :: a) = if c = '{' then none else if c = '[' then afterClass? a else some a := by
  rw [behind?]
  · rintro rfl
    exact absurd rfl hc
  · rintro d r' rfl
    exact absurd rfl hc

theorem Element.escape (c : Char) : Element ['\\', c] where
  ne_nil := by simp
  behind y := by simp [behind?]
  steady y := by simp [Glob.steady, Spot.past]

theorem Element.char (hc : c ≠ '\\') (hread : Spot.read .outside 0 c = some (.outside, 0)) :
    Element [c] where
  ne_nil := by simp
  behind y := by
    rw [List.cons_append, List.nil_append, behind?_cons hc]
    simp only [Spot.read] at hread
    grind
  steady y := steadyFrom_of_read hc hread

theorem Element.ofClass {content : Text} (h : ∀ y, afterClass? (content ++ y) = some y ∧
    steadyFrom .opened 0 (content ++ y) = steadyFrom .outside 0 y) : Element ('[' :: content) where
  ne_nil := by simp
  behind y := (h y).1
  steady y := (h y).2

theorem exists_element (ha : steady a = true) (hb : behind? a = some b) :
    ∃ e, Element e ∧ a = e ++ b := by
  cases a with
  | nil => cases hb
  | cons c r =>
    by_cases hc : c = '\\'
    · subst hc
      cases r with
      | nil => cases hb
      | cons d r' =>
        cases hb
        exact ⟨['\\', d], .escape d, rfl⟩
    · obtain ⟨s', depth', hread, hrest⟩ := read_of_steadyFrom hc ha
      rw [behind?_cons hc] at hb
      split_ifs at hb with hbrace hclass
      · subst hclass
        cases hread
        obtain ⟨content, after, rfl, hcontent⟩ := exists_class r (by decide) hrest
        rw [(hcontent after).1] at hb
        cases hb
        exact ⟨'[' :: content, .ofClass hcontent, rfl⟩
      · cases hb
        have hclose : c ≠ '}' := by
          rintro rfl
          cases hread
        exact ⟨[c], .char hc (by simp [Spot.read, hbrace, hclass, hclose]), rfl⟩

end Elements

end AbsoluteImports.Glob
