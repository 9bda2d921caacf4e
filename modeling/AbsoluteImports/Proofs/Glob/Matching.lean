import AbsoluteImports.Proofs.Glob.Steady

/-!
# Matching with steady patterns

A walk keeps at most three places in its pattern: its own and two to go back to. They may stand in
any order, but from each of them only whole elements lie before one common rest, the part of the
pattern that no walk has reached yet. As long as that rest is steady, so is the pattern from each of
the places, and the walk cannot find it malformed. Going back takes one of the places, an element is
passed by one of them, and braces are met only where the common rest begins.
-/

namespace AbsoluteImports.Glob

/-! ### Places in a pattern -/

/-- Whether only whole elements lie between two places of a pattern. -/
def Past (a b : Text) : Prop := ∃ es : List Text, (∀ e ∈ es, Element e) ∧ a = es.flatten ++ b

/-- Whether elements lead from each of a list of places to one steady rest. -/
def Ready (pattern : Text) (places : List Nat) : Prop :=
  ∃ rest, steady rest = true ∧ ∀ i ∈ places, Past (pattern.drop i) rest

section Places

variable {a b rest pattern seg y : Text} {places places' : List Nat} {i j p : Nat}

theorem Past.refl (a : Text) : Past a a := ⟨[], by simp, rfl⟩

theorem Past.steady_eq (h : Past a b) : steady a = steady b := by
  obtain ⟨es, hes, rfl⟩ := h
  induction es with
  | nil => rfl
  | cons e es ih =>
    rw [List.flatten_cons, List.append_assoc, (hes e List.mem_cons_self).steady]
    exact ih fun e' he' => hes e' (List.mem_cons_of_mem _ he')

theorem Past.snoc {e : Text} (h : Past a (e ++ b)) (he : Element e) : Past a b := by
  obtain ⟨es, hes, rfl⟩ := h
  refine ⟨es ++ [e], ?_, by simp⟩
  simpa [or_imp, forall_and] using ⟨hes, he⟩

/-- From one place to another there is nothing, or an element that is passed first. -/
theorem Past.cases_behind (h : Past a rest) :
    a = rest ∨ ∃ b, behind? a = some b ∧ Past b rest := by
  obtain ⟨es, hes, rfl⟩ := h
  cases es with
  | nil => exact .inl rfl
  | cons e es =>
    refine .inr ⟨es.flatten ++ rest, ?_, es, fun e' he' => hes e' (List.mem_cons_of_mem _ he'), rfl⟩
    rw [List.flatten_cons, List.append_assoc]
    exact (hes e List.mem_cons_self).behind _

theorem Ready.steady (h : Ready pattern places) (hi : i ∈ places) :
    steady (pattern.drop i) = true := by
  obtain ⟨rest, hrest, hpast⟩ := h
  rw [(hpast i hi).steady_eq, hrest]

theorem Ready.mono (h : Ready pattern places) (hsub : places' ⊆ places) :
    Ready pattern places' := by
  obtain ⟨rest, hrest, hpast⟩ := h
  exact ⟨rest, hrest, fun i hi => hpast i (hsub hi)⟩

theorem Ready.advance (h : Ready pattern places) (hi : i ∈ places)
    (hb : behind? (pattern.drop i) = some (pattern.drop j)) : Ready pattern (j :: places) := by
  obtain ⟨rest, hrest, hpast⟩ := h
  rcases (hpast i hi).cases_behind with heq | ⟨b, hb', hbrest⟩
  · -- The common rest begins here: it moves behind the element.
    obtain ⟨e, he, hsplit⟩ := exists_element (by rw [heq, hrest]) hb
    rw [heq] at hsplit
    subst hsplit
    rw [he.steady] at hrest
    refine ⟨_, hrest, List.forall_mem_cons.mpr ⟨.refl _, fun k hk => (hpast k hk).snoc he⟩⟩
  · rw [hb] at hb'
    cases hb'
    exact ⟨rest, hrest, List.forall_mem_cons.mpr ⟨hbrest, hpast⟩⟩

theorem drop_succ_of_drop {c : Char} {r : Text} (h : pattern.drop i = c :: r) :
    pattern.drop (i + 1) = r := by
  rw [← List.drop_drop, h]
  rfl

theorem Ready.advance_char {c : Char} {r : Text} (h : Ready pattern places) (hi : i ∈ places)
    (hdrop : pattern.drop i = c :: r) (hc : c ≠ '\\') (hbrace : c ≠ '{') (hclass : c ≠ '[') :
    Ready pattern ((i + 1) :: places) := by
  refine h.advance hi ?_
  rw [drop_succ_of_drop hdrop, hdrop, behind?_cons hc, if_neg hbrace, if_neg hclass]

theorem drop_take_append (h : pattern.drop i = seg ++ pattern.drop p) (hp : pattern.drop p ≠ []) :
    (pattern.take p ++ y).drop i = seg ++ y := by
  have hlt : p < pattern.length := by
    simpa using hp
  have hlen := congrArg List.length h
  simp only [List.length_drop, List.length_append] at hlen
  have hle : i ≤ (pattern.take p).length := by
    rw [List.length_take]
    omega
  rw [List.drop_append_of_le_length hle]
  have hseg : (pattern.take p).drop i ++ pattern.drop p = seg ++ pattern.drop p := by
    rw [← List.drop_append_of_le_length hle, List.take_append_drop, h]
  rw [List.append_cancel_right hseg]

/-- Braces may be replaced by anything steady: no place stands behind them. -/
theorem Ready.replace (h : Ready pattern places) (hp : p ∈ places)
    (hbrace : behind? (pattern.drop p) = none) (hnil : pattern.drop p ≠ [])
    (hy : Glob.steady y = true) : Ready (pattern.take p ++ y) places := by
  obtain ⟨rest, -, hpast⟩ := h
  have hrest : pattern.drop p = rest := by
    rcases (hpast p hp).cases_behind with heq | ⟨b, hb, -⟩
    · exact heq
    · simp [hbrace] at hb
  subst hrest
  refine ⟨y, hy, fun i hi => ?_⟩
  obtain ⟨es, hes, hdrop⟩ := hpast i hi
  exact ⟨es, hes, drop_take_append hdrop hnil⟩

end Places

/-! ### The end of the name -/

theorem firstMatch_ne_malformed {α : Type} {f : α → Verdict} {l : List α}
    (h : ∀ a ∈ l, f a ≠ .malformed) : firstMatch f l ≠ .malformed := by
  fun_induction firstMatch f l <;> simp_all

theorem Verdict.noMatch_ne_malformed {rest : Text} (h : isValid rest = true) :
    Verdict.noMatch rest ≠ .malformed := by
  simp [Verdict.noMatch, h]

theorem alternatives_of_steady {r : Text} (h : steady ('{' :: r) = true) :
    ∃ inside after, closeBrace? 0 r = some (inside, after) ∧
      ∀ alternative ∈ alternatives 0 inside, steady (alternative ++ after) = true := by
  obtain ⟨inside, after, hclose, -, first, others, halt, hfirst, hothers⟩ :=
    closeBrace?_of_steadyFrom (s := .outside) (e := 0) r h
  refine ⟨inside, after, hclose, ?_⟩
  rw [halt]
  exact List.forall_mem_cons.mpr ⟨hfirst, hothers⟩

theorem takesNothing_ne_malformed (fuel : Nat) (rest : Text) (h : steady rest = true) :
    takesNothing fuel rest ≠ .malformed := by
  fun_induction takesNothing fuel rest with
  | case1 rest => exact Verdict.noMatch_ne_malformed (isValid_of_steady h)
  | case2 => simp
  | case3 fuel r inside after hclose hnot ih =>
    obtain ⟨inside', after', hclose', halt⟩ := alternatives_of_steady h
    cases hclose.symm.trans hclose'
    exact firstMatch_ne_malformed fun alternative hmem => ih _ (halt alternative hmem)
  | case4 fuel r hclose hnot =>
    obtain ⟨inside, after, hclose', -⟩ := alternatives_of_steady h
    cases hclose.symm.trans hclose'
  | case5 => exact Verdict.noMatch_ne_malformed (isValid_of_steady h)

/-! ### The walk -/

def Walk.returns (w : Walk) : List Nat := (w.star.toList ++ w.doubleStar.toList).map Return.pattern

theorem Walk.mem_returns {w : Walk} {i : Nat} :
    i ∈ w.returns ↔
      (∃ b, w.star = some b ∧ b.pattern = i) ∨ ∃ b, w.doubleStar = some b ∧ b.pattern = i := by
  simp [Walk.returns]

/-- Whether a walk cannot find its pattern malformed. -/
def Walk.Sound (w : Walk) : Prop := Ready w.pattern (w.p :: w.returns)

def Step.Fine : Step → Prop
  | done v => v ≠ .malformed
  | next w => w.Sound
  | choose ws => ∀ w ∈ ws, w.Sound

section Walks

variable {name r body : Text} {w : Walk} {x c : Char} {p : Nat}

theorem Walk.goBack_cases (name : Text) (w : Walk) :
    w.goBack name = .done (.noMatch (w.pattern.drop w.p)) ∨
      ∃ w', w.goBack name = .next w' ∧ w'.pattern = w.pattern ∧ w'.p ∈ w.returns ∧
        w'.returns = w.returns := by
  simp only [Walk.goBack]
  repeat' split
  all_goals first
    | exact .inl rfl
    | exact .inr ⟨_, rfl, rfl, by simp [Walk.returns, *], by simp [Walk.returns, *]⟩

theorem Walk.goBack_fine (h : Ready w.pattern w.returns)
    (hvalid : isValid (w.pattern.drop w.p) = true) : (w.goBack name).Fine := by
  rcases w.goBack_cases name with hdone | ⟨w', hnext, hpattern, hp, hreturns⟩
  · rw [hdone]
    exact Verdict.noMatch_ne_malformed hvalid
  · rw [hnext]
    show Ready w'.pattern (w'.p :: w'.returns)
    rw [hpattern, hreturns]
    exact h.mono (by simpa using hp)

/-- A plain character is passed, or the walk goes back; a backslash before it is then kept with
it. -/
theorem Walk.plain_fine (h : w.Sound) (hdrop : w.pattern.drop p = c :: r)
    (hbehind : behind? (w.pattern.drop w.p) = some r)
    (hescape : p ≠ 0 ∧ w.pattern[p - 1]? = some '\\' ∨ p = w.p) :
    (w.plain name x c p).Fine := by
  have hnext := drop_succ_of_drop hdrop
  have hready := h.advance List.mem_cons_self (hbehind.trans (congrArg some hnext.symm))
  simp only [Walk.plain]
  split
  · refine hready.mono ?_
    simp [Walk.returns]
  · refine Walk.goBack_fine (h.mono (List.subset_cons_self _ _)) ?_
    show isValid (w.pattern.drop (if (p != 0 && w.pattern[p - 1]? == some '\\') = true
      then p - 1 else p)) = true
    split_ifs with hesc
    · simp only [Bool.and_eq_true, bne_iff_ne, beq_iff_eq] at hesc
      obtain ⟨hlt, hget⟩ := List.getElem?_eq_some_iff.mp hesc.2
      have hback : w.pattern.drop (p - 1) = '\\' :: c :: r := by
        rw [List.drop_eq_getElem_cons hlt, hget, Nat.sub_add_cancel (by omega), hdrop]
      rw [hback, isValid, isValidFrom_escape, ← hnext]
      exact isValid_of_steady (hready.steady List.mem_cons_self)
    · have hp : p = w.p := by
        rcases hescape with ⟨hpos, hget⟩ | hp
        · simp [hpos, hget] at hesc
        · exact hp
      rw [hp]
      exact isValid_of_steady (h.steady List.mem_cons_self)

def isNegated (body : Text) : Bool := body.head? == some '!' || body.head? == some '^'

def classContent (body : Text) : Text := if isNegated body then body.drop 1 else body

theorem classContent_suffix (body : Text) : classContent body <:+ body := by
  unfold classContent
  split
  · exact List.drop_suffix 1 body
  · exact List.suffix_rfl

theorem steadyFrom_classContent (h : steady ('[' :: body) = true) :
    afterClass? (classContent body) = afterClass? body ∧
      ∃ s, (s = .negated ∧ isNegated body = true ∨ s = .opened ∧ isNegated body = false) ∧
        steadyFrom s 0 (classContent body) = true := by
  by_cases hneg : isNegated body = true
  · obtain ⟨mark, content, rfl, hmark⟩ :
        ∃ mark content, body = mark :: content ∧ (mark = '!' ∨ mark = '^') := by
      cases body with
      | nil => simp [isNegated] at hneg
      | cons mark content => exact ⟨mark, content, rfl, by simpa [isNegated] using hneg⟩
    have hread : Spot.read .opened 0 mark = some (.negated, 0) := by
      rcases hmark with rfl | rfl <;> rfl
    have hc : mark ≠ '\\' := by
      rcases hmark with rfl | rfl <;> decide
    have hend : mark ≠ ']' := by
      rcases hmark with rfl | rfl <;> decide
    rw [classContent, if_pos hneg, List.drop_succ_cons, List.drop_zero]
    rw [afterClass?_cons hc, if_neg hend]
    exact ⟨rfl, .negated, .inl ⟨rfl, hneg⟩, (steadyFrom_of_read hc hread).symm.trans h⟩
  · rw [classContent, if_neg hneg]
    exact ⟨rfl, .opened, .inr ⟨rfl, Bool.eq_false_iff.mpr hneg⟩, h⟩

theorem classContent_ne (h : steady ('[' :: body) = true) :
    classContent body ≠ [] ∧ ∀ after, classContent body ≠ ']' :: after := by
  obtain ⟨-, s, hs, hsteady⟩ := steadyFrom_classContent h
  constructor
  · intro hnil
    rw [hnil] at hsteady
    rcases hs with ⟨rfl, -⟩ | ⟨rfl, -⟩ <;> simp [steadyFrom] at hsteady
  · intro after hend
    rw [hend] at hsteady
    rcases hs with ⟨rfl, -⟩ | ⟨rfl, -⟩ <;> simp [steadyFrom, Spot.read] at hsteady

theorem afterClass?_of_steady (h : steady ('[' :: body) = true) :
    ∃ after, afterClass? body = some after ∧ steady after = true := by
  have hopened : steadyFrom .opened 0 body = true := h
  obtain ⟨content, after, rfl, hcontent⟩ := exists_class body (by decide) hopened
  obtain ⟨hclosed, hsteady⟩ := hcontent after
  exact ⟨after, hclosed, hsteady.symm.trans hopened⟩

theorem isValid_searchClass (h : steady ('[' :: body) = true)
    (hfound : (searchClass x none (classContent body)).found = isNegated body) :
    (searchClass x none (classContent body)).rest ≠ [] ∧
      isValid (searchClass x none (classContent body)).rest = true := by
  obtain ⟨hafter, s, hs, hsteady⟩ := steadyFrom_classContent h
  obtain ⟨after, hend, hrest⟩ := afterClass?_of_steady h
  have hclosed := afterClass?_searchClass x none (classContent body)
  rw [hafter, hend] at hclosed
  constructor
  · intro hnil
    rw [hnil] at hclosed
    cases hclosed
  · rcases hs with ⟨rfl, hneg⟩ | ⟨rfl, hneg⟩
    · rw [hneg] at hfound
      have hinside := steadyFrom_searchClass x none _ rfl hsteady hfound
      exact isValid_of_steady (steadyFrom_outside_of_negated _ hinside)
    · rw [hneg] at hfound
      rcases searchClass_not_found hfound with hnil | ⟨after', hstop⟩
      · rw [hnil] at hclosed
        cases hclosed
      · rw [hstop] at hclosed ⊢
        cases hclosed
        rw [isValid, isValidFrom_cons (by decide) (by decide) (by decide) (by decide)]
        exact isValid_of_steady hrest

theorem drop_of_suffix {rest pattern : Text} (h : rest <:+ pattern) :
    pattern.drop (pattern.length - rest.length) = rest :=
  (List.suffix_iff_eq_drop.mp h).symm

theorem Walk.inClass_eq (hnil : classContent body ≠ [])
    (hend : ∀ after, classContent body ≠ ']' :: after) :
    w.inClass name x body =
      let found := searchClass x none (classContent body)
      if found.found == isNegated body then
        if found.rest.isEmpty then .done .malformed
        else Walk.goBack name
          { w with p := w.pattern.length - found.rest.length, segmentStart := false }
      else match afterClass? found.rest with
        | some rest => .next
          { w with p := w.pattern.length - rest.length, n := w.n + 1, segmentStart := false }
        | none => .done .malformed := by
  show (match classContent body with
    | [] => Step.done .malformed
    | ']' :: _ => .done .malformed
    | _ => _) = _
  split
  · exact (hnil ‹_›).elim
  · exact (hend _ ‹_›).elim
  · rfl

theorem Walk.inClass_fine (h : w.Sound) (hdrop : w.pattern.drop w.p = '[' :: body) :
    (w.inClass name x body).Fine := by
  have hsteady := h.steady List.mem_cons_self
  have hsuffix : '[' :: body <:+ w.pattern := hdrop ▸ List.drop_suffix w.p w.pattern
  rw [hdrop] at hsteady
  have hbehind := afterClass?_searchClass x none (classContent body)
  rw [(steadyFrom_classContent hsteady).1] at hbehind
  obtain ⟨hnil, hend⟩ := classContent_ne hsteady
  rw [Walk.inClass_eq hnil hend]
  simp only
  split
  · rename_i hfound
    obtain ⟨hne, hvalid⟩ := isValid_searchClass hsteady (beq_iff_eq.mp hfound)
    rw [if_neg (by simpa using hne)]
    have hrest := (((searchClass_suffix x none _).trans (classContent_suffix body)).trans
      (List.suffix_cons _ _)).trans hsuffix
    refine Walk.goBack_fine (h.mono (List.subset_cons_self _ _)) ?_
    rwa [← drop_of_suffix hrest] at hvalid
  · split
    · rename_i rest hrest
      have hb : behind? (w.pattern.drop w.p) = some rest := by
        rw [hdrop]
        exact hbehind.symm.trans hrest
      obtain ⟨e, -, he⟩ := exists_element (h.steady List.mem_cons_self) hb
      have hplace := drop_of_suffix
        ((he ▸ List.suffix_append e rest).trans (List.drop_suffix w.p w.pattern))
      rw [← hplace] at hb
      refine (h.advance List.mem_cons_self hb).mono ?_
      simp [Walk.returns]
    · rename_i hnone
      obtain ⟨after, hend, -⟩ := afterClass?_of_steady hsteady
      rw [hnone, hend] at hbehind
      cases hbehind

/-- Each alternative of braces goes on with its own pattern. -/
theorem Walk.inBraces_fine (h : w.Sound) (hdrop : w.pattern.drop w.p = '{' :: body) :
    (w.inBraces body).Fine := by
  have hsteady := h.steady List.mem_cons_self
  rw [hdrop] at hsteady
  obtain ⟨inside, after, hclose, halt⟩ := alternatives_of_steady hsteady
  rw [Walk.inBraces, hclose]
  intro w' hw'
  obtain ⟨alternative, hmem, rfl⟩ := List.mem_map.mp hw'
  have hreplaced := h.replace List.mem_cons_self (by rw [hdrop]; rfl) (by simp [hdrop])
    (halt alternative hmem)
  rwa [← List.append_assoc] at hreplaced

/-- Two stars are taken for whole elements of the path, with the slash behind them, or for a part of
one element. -/
theorem Walk.twoStars_fine {r : Text} (h : w.Sound) (hdrop : w.pattern.drop w.p = '*' :: '*' :: r) :
    (match w.segmentStart, r with
      | true, [] => Step.done .matched
      | true, '/' :: _ =>
        .next { w with p := w.p + 3, doubleStar := some ⟨w.p + 3, w.n⟩, star := none }
      | _, _ => .next { w with
          p := w.p + 2, segmentStart := false, star := some ⟨w.p + 2, w.n⟩ }).Fine := by
  have hsecond := drop_succ_of_drop hdrop
  have hfirst := h.advance_char List.mem_cons_self hdrop (by decide) (by decide) (by decide)
  have htwo := hfirst.advance_char List.mem_cons_self hsecond (by decide) (by decide) (by decide)
  split
  · simp [Step.Fine]
  · have hthree := htwo.advance_char List.mem_cons_self (drop_succ_of_drop hsecond)
      (by decide) (by decide) (by decide)
    refine hthree.mono ?_
    simp [Walk.returns]
  · refine htwo.mono fun i hi => ?_
    simp only [Walk.mem_returns, List.mem_cons] at hi ⊢
    grind

theorem Walk.step_fine (name : Text) (h : w.Sound) : (w.step name).Fine := by
  have hsteady := h.steady List.mem_cons_self
  have hback : Ready w.pattern w.returns := h.mono (List.subset_cons_self _ _)
  unfold Walk.step
  split
  · exact takesNothing_ne_malformed _ _ hsteady
  · rename_i x _ _
    simp only
    split
    · exact Walk.goBack_fine hback (isValid_of_steady hsteady)
    · rename_i r hdrop
      exact Walk.twoStars_fine h hdrop
    · rename_i r _ hdrop
      have hnext := h.advance_char List.mem_cons_self hdrop (by decide) (by decide) (by decide)
      refine hnext.mono fun i hi => ?_
      simp only [Walk.mem_returns, List.mem_cons] at hi ⊢
      grind
    · rename_i r hdrop
      split
      · exact Walk.goBack_fine hback (isValid_of_steady hsteady)
      · have hnext := h.advance_char List.mem_cons_self hdrop (by decide) (by decide) (by decide)
        refine hnext.mono ?_
        simp [Walk.returns]
    · rename_i body hdrop
      exact Walk.inClass_fine h hdrop
    · rename_i body hdrop
      exact Walk.inBraces_fine h hdrop
    · rename_i hdrop
      rw [hdrop] at hsteady
      cases hsteady
    · rename_i c r hdrop
      have hget : w.pattern[w.p]? = some '\\' := by
        rw [← List.head?_drop, hdrop]
        rfl
      refine Walk.plain_fine h (drop_succ_of_drop hdrop) ?_ (.inl ⟨by simp, hget⟩)
      rw [hdrop]
      rfl
    · rename_i c r _ _ _ hclass hbrace hlone hescape hdrop
      have hc : c ≠ '\\' := by
        rintro rfl
        cases r with
        | nil => exact hlone rfl rfl
        | cons d r => exact hescape d r rfl rfl
      refine Walk.plain_fine h hdrop ?_ (.inr rfl)
      rw [hdrop, behind?_cons hc, if_neg hbrace, if_neg hclass]

theorem Walk.run_ne_malformed (name : Text) (fuel : Nat) (w : Walk) (h : w.Sound) :
    w.run name fuel ≠ .malformed := by
  induction fuel generalizing w with
  | zero => exact Verdict.noMatch_ne_malformed (isValid_of_steady (h.steady List.mem_cons_self))
  | succ fuel ih =>
    have hfine := w.step_fine name h
    rw [Walk.run]
    split
    · rename_i v hstep
      rwa [hstep] at hfine
    · rename_i w' hstep
      rw [hstep] at hfine
      exact ih w' hfine
    · rename_i ws hstep
      rw [hstep] at hfine
      exact firstMatch_ne_malformed fun w' hw' => ih w' (hfine w' hw')

end Walks

theorem check_ne_malformed {pattern : Text} (h : steady pattern = true) (name : Text) :
    check pattern name ≠ .malformed := by
  refine Walk.run_ne_malformed name _ _ ⟨pattern, h, ?_⟩
  simpa [Walk.returns] using Past.refl pattern

end AbsoluteImports.Glob
