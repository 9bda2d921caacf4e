import AbsoluteImports.Proofs.FileTree.Likeness

/-!
# Trees that grow while paths are followed

While files are replaced, temporary files stand in a tree that were not there. A path that does
not end for want of an entry leads to the same place, or fails for the same cause, with any such
files around. Without links, a path may also be cleaned: it still leads where it led.
-/

namespace AbsoluteImports.FileTree

variable {t u : FileTree} {follow : Location → List Text → Except Cause Location}

/-! ### New files -/

/-- The entries of one tree are in another, up to what files hold, and beside them are files
alone. -/
structure Grown (t u : FileTree) : Prop where
  kept : ∀ l e, t.get? l = some e → ∃ e', u.get? l = some e' ∧ e'.shape = e.shape
  files : ∀ l, t.get? l = none →
    u.get? l = none ∨ ∃ content mode, u.get? l = some (.file content mode)

theorem Grown.directory_iff (h : Grown t u) {l : Location} :
    u.get? l = some .directory ↔ t.get? l = some .directory := by
  constructor
  · intro hu
    cases ht : t.get? l with
    | none =>
      rcases h.files l ht with hn | ⟨content, mode, hf⟩
      · rw [hu] at hn
        cases hn
      · rw [hu] at hf
        cases hf
    | some e =>
      obtain ⟨e', he', hshape⟩ := h.kept l e ht
      rw [hu] at he'
      cases he'
      cases e with
      | directory => rfl
      | file content mode => simp [Entry.shape] at hshape
      | link target => simp [Entry.shape] at hshape
  · intro ht
    obtain ⟨e', he', hshape⟩ := h.kept l _ ht
    cases e' with
    | directory => exact he'
    | file content mode => simp [Entry.shape] at hshape
    | link target => simp [Entry.shape] at hshape

theorem Grown.linkFree (h : Grown t u) (ht : t.LinkFree) : u.LinkFree := by
  intro l target hu
  cases hl : t.get? l with
  | none =>
    rcases h.files l hl with hn | ⟨content, mode, hf⟩
    · rw [hu] at hn
      cases hn
    · rw [hu] at hf
      cases hf
  | some e =>
    obtain ⟨e', he', hshape⟩ := h.kept l e hl
    rw [hu] at he'
    cases he'
    cases e with
    | directory => simp [Entry.shape] at hshape
    | file content mode => simp [Entry.shape] at hshape
    | link target' => exact ht l target' hl

theorem walk_of_not_directory {l : Location} (h : t.get? l ≠ some .directory) (c : Text)
    (rest : List Text) : walk t follow l (c :: rest) = .error .notDirectory := by
  rw [walk]
  split
  · rename_i hd
    exact absurd hd h
  · rfl

theorem walk_down {l : Location} {c : Text} {e : Entry} (hd : t.get? l = some .directory)
    (hh : c ≠ Path.here) (ha : c ≠ Path.above) (hn : ¬nameLimit < (Utf8.encode c).length)
    (he : t.get? (l ++ [c]) = some e) (hl : ∀ target, e ≠ .link target) (rest : List Text) :
    walk t follow l (c :: rest) = walk t follow (l ++ [c]) rest := by
  rw [walk, hd]
  cases e with
  | link target => exact absurd rfl (hl target)
  | file content mode => simp only [hh, ha, hn, ↓reduceIte, he]
  | directory => simp only [hh, ha, hn, ↓reduceIte, he]

theorem walk_here {l : Location} (hd : t.get? l = some .directory) (rest : List Text) :
    walk t follow l (Path.here :: rest) = walk t follow l rest := by
  rw [walk, hd]
  simp only [↓reduceIte]

theorem walk_above {l : Location} (hd : t.get? l = some .directory) (rest : List Text) :
    walk t follow l (Path.above :: rest) = walk t follow l.dropLast rest := by
  have hne : Path.above ≠ Path.here := by decide
  rw [walk, hd]
  simp only [hne, ↓reduceIte]

/-- Only a walk that ends for want of an entry can go on where files were added. -/
theorem walk_grown {follow' : Location → List Text → Except Cause Location} (h : t.Grown u)
    (ht : t.LinkFree) {l : Location} {cs : List Text}
    (hne : walk t follow l cs ≠ .error .noEntry) :
    walk u follow' l cs = walk t follow l cs := by
  induction cs generalizing l with
  | nil => rfl
  | cons c rest ih =>
    by_cases hd : t.get? l = some .directory
    · have hd' := h.directory_iff.mpr hd
      by_cases hh : c = Path.here
      · rw [hh, walk_here hd] at hne ⊢
        rw [walk_here hd']
        exact ih hne
      by_cases ha : c = Path.above
      · rw [ha, walk_above hd] at hne ⊢
        rw [walk_above hd']
        exact ih hne
      by_cases hn : nameLimit < (Utf8.encode c).length
      · rw [walk, walk, hd, hd']
        simp only [hh, ha, hn, ↓reduceIte]
      cases he : t.get? (l ++ [c]) with
      | none =>
        rw [walk, hd] at hne
        simp only [hh, ha, hn, ↓reduceIte, he] at hne
        exact absurd rfl hne
      | some e =>
        obtain ⟨e', he', -⟩ := h.kept _ e he
        have hl : ∀ target, e ≠ .link target := fun target hlink => ht _ target (hlink ▸ he)
        have hl' : ∀ target, e' ≠ .link target :=
          fun target hlink => h.linkFree ht _ target (hlink ▸ he')
        rw [walk_down hd hh ha hn he hl] at hne ⊢
        rw [walk_down hd' hh ha hn he' hl']
        exact ih hne
    · have hd' : u.get? l ≠ some .directory := fun hu => hd (h.directory_iff.mp hu)
      rw [walk_of_not_directory hd, walk_of_not_directory hd']

theorem resolve_grown (h : t.Grown u) (ht : t.LinkFree) {n : Nat} {l : Location}
    {cs : List Text} (hne : resolve t n l cs ≠ .error .noEntry) :
    resolve u n l cs = resolve t n l cs := by
  cases n with
  | zero => exact walk_grown h ht hne
  | succ n => exact walk_grown h ht hne

theorem locate_grown (h : t.Grown u) (ht : t.LinkFree) {cwd : Location} {path : Text}
    (hne : t.locate cwd path ≠ .error .noEntry) : u.locate cwd path = t.locate cwd path := by
  unfold locate at hne ⊢
  cases hs : start cwd path with
  | error c => simp only [bind, Except.bind]
  | ok p =>
    simp only [hs, bind, Except.bind] at hne ⊢
    exact resolve_grown h ht hne

theorem place_grown (h : t.Grown u) (ht : t.LinkFree) {cwd : Location} {path : Text}
    (hne : t.place cwd path ≠ .error .noEntry) : u.place cwd path = t.place cwd path := by
  unfold place at hne ⊢
  cases hs : start cwd path with
  | error c => simp only [bind, Except.bind]
  | ok p =>
    obtain ⟨l, cs⟩ := p
    simp only [hs, bind, Except.bind] at hne ⊢
    cases hlast : cs.getLast? with
    | none => rfl
    | some c =>
      simp only [hlast] at hne ⊢
      by_cases hc : c = Path.here ∨ c = Path.above
      · simp only [hc, ↓reduceIte] at hne ⊢
        exact resolve_grown h ht hne
      simp only [hc, ↓reduceIte] at hne ⊢
      have hsame : resolve t linkLimit l cs.dropLast ≠ .error .noEntry →
          resolve u linkLimit l cs.dropLast = resolve t linkLimit l cs.dropLast :=
        resolve_grown h ht
      cases hr : resolve t linkLimit l cs.dropLast with
      | error e =>
        rw [hsame (by simpa only [hr] using hne), hr]
      | ok dir =>
        rw [hsame (by simp [hr]), hr]
        by_cases hd : t.get? dir = some .directory
        · simp only [hd, h.directory_iff.mpr hd]
        · have hd' : u.get? dir ≠ some .directory := fun hu => hd (h.directory_iff.mp hu)
          simp only

/-! ### Cleaning -/

theorem walk_append_of_ok (ht : t.LinkFree) {l m : Location} {as : List Text}
    (h : walk t follow l as = .ok m) (bs : List Text) :
    walk t follow l (as ++ bs) = walk t follow m bs := by
  induction as generalizing l with
  | nil =>
    have hlm : l = m := Except.ok.inj h
    rw [hlm, List.nil_append]
  | cons c rest ih =>
    obtain ⟨hd, hs⟩ := walk_cons_ok.mp h
    rw [List.cons_append]
    cases hs with
    | here hc hx => rw [hc, walk_here hd, ih hx]
    | above hc hx => rw [hc, walk_above hd, ih hx]
    | link _ _ _ target he _ => exact absurd he (ht _ target)
    | down hh ha hn e he hl hx => rw [walk_down hd hh ha (by omega) he hl, ih hx]

theorem walk_append (ht : t.LinkFree) {l x : Location} {as bs : List Text}
    (h : walk t follow l (as ++ bs) = .ok x) :
    ∃ m, walk t follow l as = .ok m ∧ walk t follow m bs = .ok x := by
  induction as generalizing l with
  | nil => exact ⟨l, walk_nil l, h⟩
  | cons c rest ih =>
    rw [List.cons_append, walk_cons_ok] at h
    obtain ⟨hd, hs⟩ := h
    cases hs with
    | here hc hx =>
      obtain ⟨m, hm, hx⟩ := ih hx
      exact ⟨m, walk_cons_ok.mpr ⟨hd, .here hc hm⟩, hx⟩
    | above hc hx =>
      obtain ⟨m, hm, hx⟩ := ih hx
      exact ⟨m, walk_cons_ok.mpr ⟨hd, .above hc hm⟩, hx⟩
    | link _ _ _ target he _ => exact absurd he (ht _ target)
    | down hh ha hn e he hl hx =>
      obtain ⟨m, hm, hx⟩ := ih hx
      exact ⟨m, walk_cons_ok.mpr ⟨hd, .down hh ha hn e he hl hm⟩, hx⟩

/-- A step back takes away the last name on the stack, and the walk is again where it was before
that name. -/
theorem walk_dropLast (ht : t.LinkFree) {s l : Location} {stack : List Text} {top : Text}
    (hh : top ≠ Path.here) (ha : top ≠ Path.above)
    (h : walk t follow s (stack ++ [top]) = .ok l) : walk t follow s stack = .ok l.dropLast := by
  obtain ⟨m, hm, htop⟩ := walk_append ht h
  obtain ⟨-, hs⟩ := walk_cons_ok.mp htop
  cases hs with
  | here hc _ => exact absurd hc hh
  | above hc _ => exact absurd hc ha
  | link _ _ _ target he _ => exact absurd he (ht _ target)
  | down _ _ _ _ _ _ hx =>
    have hl : m ++ [top] = l := Except.ok.inj hx
    rw [← hl, List.dropLast_concat]
    exact hm

theorem push_ne_here {rooted : Bool} {stack : List Text} (h : ∀ c ∈ stack, c ≠ Path.here)
    (c : Text) : ∀ c' ∈ Path.push rooted stack c, c' ≠ Path.here := by
  intro c' hc'
  rcases Path.mem_push hc' with hmem | rfl | ⟨rfl, -, hne⟩
  · exact h c' hmem
  · decide
  · exact hne

theorem walk_push_above (ht : t.LinkFree) {rooted : Bool} {s l : Location} {stack : List Text}
    (hroot : rooted = true → s = []) (hstack : ∀ c ∈ stack, c ≠ Path.here)
    (hs : walk t follow s stack.reverse = .ok l)
    (hup : walk t follow l [Path.above] = .ok l.dropLast) :
    walk t follow s (Path.push rooted stack Path.above).reverse = .ok l.dropLast := by
  have hne : ¬(Path.above = [] ∨ Path.above = Path.here) := by decide
  cases stack with
  | nil =>
    have hsl : s = l := Except.ok.inj hs
    subst hsl
    cases rooted with
    | true =>
      have hnil := hroot rfl
      subst hnil
      rfl
    | false => exact hup
  | cons top below =>
    simp only [Path.push, hne, ↓reduceIte]
    by_cases htop : top = Path.above
    · simp only [htop, ↓reduceIte]
      rw [List.reverse_cons]
      rw [htop] at hs
      rw [walk_append_of_ok ht hs]
      exact hup
    · simp only [htop, ↓reduceIte]
      rw [List.reverse_cons] at hs
      exact walk_dropLast ht (hstack top (List.mem_cons_self ..)) htop hs

/-- The invariant of cleaning: the stack leads to where the walk is. -/
theorem walk_foldl_push (ht : t.LinkFree) {rooted : Bool} {s l x : Location}
    {stack cs : List Text} (hroot : rooted = true → s = [])
    (hstack : ∀ c ∈ stack, c ≠ Path.here) (hs : walk t follow s stack.reverse = .ok l)
    (hw : walk t follow l (cs.filter (· ≠ [])) = .ok x) :
    walk t follow s (cs.foldl (Path.push rooted) stack).reverse = .ok x := by
  induction cs generalizing stack l with
  | nil =>
    have hlx : l = x := Except.ok.inj hw
    rw [← hlx]
    exact hs
  | cons c rest ih =>
    rw [List.foldl_cons]
    by_cases hc : c = []
    · rw [List.filter_cons_of_neg (by simp [hc])] at hw
      have hpush : Path.push rooted stack c = stack := by simp [Path.push, hc]
      rw [hpush]
      exact ih hstack hs hw
    rw [List.filter_cons_of_pos (by simpa using hc)] at hw
    obtain ⟨hd, hstep⟩ := walk_cons_ok.mp hw
    have hnext : ∀ c' ∈ Path.push rooted stack c, c' ≠ Path.here := push_ne_here hstack c
    cases hstep with
    | here hc' hx =>
      have hpush : Path.push rooted stack c = stack := by simp [Path.push, hc']
      rw [hpush]
      exact ih hstack hs hx
    | above hc' hx =>
      subst hc'
      have hup : walk t follow l [Path.above] = .ok l.dropLast :=
        walk_cons_ok.mpr ⟨hd, .above rfl rfl⟩
      exact ih hnext (walk_push_above ht hroot hstack hs hup) hx
    | link _ _ _ target he _ => exact absurd he (ht _ target)
    | down hh ha hn e he hl hx =>
      have hpush : Path.push rooted stack c = c :: stack := by
        simp only [Path.push, hc, hh, ha, or_self, ↓reduceIte]
      refine ih hnext ?_ hx
      rw [hpush, List.reverse_cons, walk_append_of_ok ht hs]
      exact walk_cons_ok.mpr ⟨hd, .down hh ha hn e he hl (walk_nil _)⟩

theorem walk_reduce (ht : t.LinkFree) {rooted : Bool} {s x : Location} {cs : List Text}
    (hroot : rooted = true → s = []) (hw : walk t follow s (cs.filter (· ≠ [])) = .ok x) :
    walk t follow s (Path.reduce rooted cs) = .ok x :=
  walk_foldl_push ht hroot (by simp) (walk_nil s) hw

theorem resolve_reduce (ht : t.LinkFree) {n : Nat} {rooted : Bool} {s x : Location}
    {cs : List Text} (hroot : rooted = true → s = [])
    (hr : resolve t n s (cs.filter (· ≠ [])) = .ok x) :
    resolve t n s (Path.reduce rooted cs) = .ok x := by
  cases n with
  | zero => exact walk_reduce ht hroot hr
  | succ n => exact walk_reduce ht hroot hr

theorem resolve_append_of_ok (ht : t.LinkFree) {n : Nat} {l m : Location} {as : List Text}
    (h : resolve t n l as = .ok m) (bs : List Text) :
    resolve t n l (as ++ bs) = resolve t n m bs := by
  cases n with
  | zero => exact walk_append_of_ok ht h bs
  | succ n => exact walk_append_of_ok ht h bs

theorem resolve_here {n : Nat} {l : Location} (hd : t.get? l = some .directory) :
    resolve t n l [Path.here] = .ok l := by
  cases n with
  | zero => exact walk_here hd []
  | succ n => exact walk_here hd []

theorem resolve_name {n : Nat} {l : Location} {c : Text} {e : Entry}
    (hd : t.get? l = some .directory) (hh : c ≠ Path.here) (ha : c ≠ Path.above)
    (he : t.get? (l ++ [c]) = some e) (hl : ∀ target, e ≠ .link target) :
    resolve t n l [c] =
      if nameLimit < (Utf8.encode c).length then .error .nameTooLong else .ok (l ++ [c]) := by
  have hwalk : ∀ follow, walk t follow l [c] =
      if nameLimit < (Utf8.encode c).length then .error .nameTooLong else .ok (l ++ [c]) := by
    intro follow
    by_cases hn : nameLimit < (Utf8.encode c).length
    · rw [walk, hd]
      simp only [hh, ha, hn, ↓reduceIte]
    · rw [walk_down hd hh ha hn he hl, if_neg hn, walk_nil]
  cases n with
  | zero => exact hwalk _
  | succ n => exact hwalk _

end AbsoluteImports.FileTree
