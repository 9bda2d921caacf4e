import AbsoluteImports.FileTree.Access
import AbsoluteImports.Proofs.FileTree.View
import AbsoluteImports.Proofs.Path.Components

/-!
# Following paths

What one step of a walk can do is said once, in `walk_cons_ok`; everything else about paths
follows from it: a tree that grows keeps the paths it had, files may change their content
without any path leading elsewhere, and a path to an entry also names a place for one.
-/

namespace AbsoluteImports.FileTree

variable {t u : FileTree} {follow : Location → List Text → Except Cause Location}

/-! ### One step -/

/-- What follows a step from one location to the next, links included. -/
inductive Step (t : FileTree) (follow : Location → List Text → Except Cause Location)
    (l : Location) (c : Text) (rest : List Text) (x : Location) : Prop
  | here (h : c = Path.here) (hx : walk t follow l rest = .ok x)
  | above (h : c = Path.above) (hx : walk t follow l.dropLast rest = .ok x)
  | link (hh : c ≠ Path.here) (ha : c ≠ Path.above)
      (hn : (Utf8.encode c).length ≤ nameLimit) (target : Text)
      (he : t.get? (l ++ [c]) = some (.link target))
      (hx : follow (if Path.isAbsolute target then [] else l) (steps target ++ rest) = .ok x)
  | down (hh : c ≠ Path.here) (ha : c ≠ Path.above)
      (hn : (Utf8.encode c).length ≤ nameLimit) (e : Entry)
      (he : t.get? (l ++ [c]) = some e) (hl : ∀ target, e ≠ .link target)
      (hx : walk t follow (l ++ [c]) rest = .ok x)

theorem walk_nil (l : Location) : walk t follow l [] = .ok l := rfl

theorem Step.of_walk {l x : Location} {c : Text} {rest : List Text}
    (h : walk t follow l (c :: rest) = .ok x) :
    t.get? l = some .directory ∧ Step t follow l c rest x := by
  rw [walk] at h
  split at h
  · rename_i hd
    refine ⟨hd, ?_⟩
    split at h
    · rename_i hh
      exact .here hh h
    · rename_i hh
      split at h
      · rename_i ha
        exact .above ha h
      · rename_i ha
        split at h
        · cases h
        · rename_i hn
          split at h
          · cases h
          · rename_i target he
            exact .link hh ha (Nat.not_lt.mp hn) target he h
          · rename_i e hl he
            exact .down hh ha (Nat.not_lt.mp hn) e he hl h
  · cases h

theorem Step.walk_eq {l x : Location} {c : Text} {rest : List Text}
    (hd : t.get? l = some .directory) (hs : Step t follow l c rest x) :
    walk t follow l (c :: rest) = .ok x := by
  rw [walk, hd]
  cases hs with
  | here hc hx => simp only [hc, ↓reduceIte]; exact hx
  | above hc hx =>
    have hne : Path.above ≠ Path.here := by decide
    simp only [hc, hne, ↓reduceIte]
    exact hx
  | link hh ha hn target he hx =>
    simp only [hh, ha, Nat.not_lt.mpr hn, ↓reduceIte, he]
    exact hx
  | down hh ha hn e he hl hx =>
    simp only [hh, ha, Nat.not_lt.mpr hn, ↓reduceIte, he]
    cases e with
    | link target => exact absurd rfl (hl target)
    | file content mode => exact hx
    | directory => exact hx

theorem walk_cons_ok {l x : Location} {c : Text} {rest : List Text} :
    walk t follow l (c :: rest) = .ok x ↔
      t.get? l = some .directory ∧ Step t follow l c rest x :=
  ⟨Step.of_walk, fun h => h.2.walk_eq h.1⟩

/-! ### Trees that grow -/

/-- Every entry of a tree is also one of another tree. -/
def Within (t u : FileTree) : Prop := ∀ l e, t.get? l = some e → u.get? l = some e

theorem within_set_of_none {m : Location} (h : t.get? m = none) (e : Entry) :
    t.Within (t.set m e) := by
  intro k e' hk
  have hne : k ≠ m := by
    intro hkm
    rw [hkm, h] at hk
    cases hk
  rw [get?_set t (ne_root_of_none h), if_neg hne, hk]

theorem walk_mono {follow' : Location → List Text → Except Cause Location} (h : t.Within u)
    (hf : ∀ l cs x, follow l cs = .ok x → follow' l cs = .ok x) {l x : Location}
    {cs : List Text} (hw : walk t follow l cs = .ok x) : walk u follow' l cs = .ok x := by
  induction cs generalizing l with
  | nil => exact hw
  | cons c rest ih =>
    obtain ⟨hd, hs⟩ := walk_cons_ok.mp hw
    refine walk_cons_ok.mpr ⟨h l _ hd, ?_⟩
    cases hs with
    | here hc hx => exact .here hc (ih hx)
    | above hc hx => exact .above hc (ih hx)
    | link hh ha hn target he hx => exact .link hh ha hn target (h _ _ he) (hf _ _ _ hx)
    | down hh ha hn e he hl hx => exact .down hh ha hn e (h _ _ he) hl (ih hx)

theorem resolve_mono (h : t.Within u) {n : Nat} {l x : Location} {cs : List Text}
    (hr : resolve t n l cs = .ok x) : resolve u n l cs = .ok x := by
  induction n generalizing l cs x with
  | zero => exact walk_mono h (fun _ _ _ hx => hx) hr
  | succ n ih => exact walk_mono h (fun _ _ _ hx => ih hx) hr

theorem bind_start_eq_ok {cwd l : Location} {path : Text}
    {f : Location × List Text → Except Cause Location} :
    (start cwd path).bind f = .ok l ↔ ∃ s cs, start cwd path = .ok (s, cs) ∧ f (s, cs) = .ok l := by
  cases hs : start cwd path with
  | error c => simp [Except.bind]
  | ok p =>
    obtain ⟨s, cs⟩ := p
    constructor
    · intro h
      exact ⟨s, cs, rfl, h⟩
    · intro h
      obtain ⟨s', cs', heq, hf⟩ := h
      cases heq
      exact hf

theorem locate_eq_ok {cwd l : Location} {path : Text} :
    t.locate cwd path = .ok l ↔
      ∃ s cs, start cwd path = .ok (s, cs) ∧ resolve t linkLimit s cs = .ok l :=
  bind_start_eq_ok

/-- The ways in which a path can name a place: where it leads to when it ends in a step that
is no name, and else one name below a directory. -/
theorem place_eq_ok {cwd l : Location} {path : Text} :
    t.place cwd path = .ok l ↔
      ∃ s cs, start cwd path = .ok (s, cs) ∧
        ((cs.getLast? = none ∧ l = s) ∨
        (∃ c, cs.getLast? = some c ∧ (c = Path.here ∨ c = Path.above) ∧
          resolve t linkLimit s cs = .ok l) ∨
        ∃ c dir, cs.getLast? = some c ∧ ¬(c = Path.here ∨ c = Path.above) ∧
          resolve t linkLimit s cs.dropLast = .ok dir ∧ t.get? dir = some .directory ∧
          (Utf8.encode c).length ≤ nameLimit ∧ l = dir ++ [c]) := by
  refine bind_start_eq_ok.trans (exists_congr fun s => exists_congr fun cs =>
    and_congr_right fun _ => ?_)
  simp only
  constructor
  · intro h
    split at h
    · rename_i hc
      exact .inl ⟨hc, (Except.ok.inj h).symm⟩
    · rename_i c hc
      split at h
      · rename_i hk
        exact .inr (.inl ⟨c, hc, hk, h⟩)
      · rename_i hk
        cases hr : resolve t linkLimit s cs.dropLast with
        | error x => rw [hr] at h; cases h
        | ok dir =>
          simp only [hr, bind, Except.bind] at h
          split at h
          · rename_i hd
            split at h
            · cases h
            · rename_i hn
              exact .inr (.inr ⟨c, dir, hc, hk, rfl, hd, Nat.not_lt.mp hn, (Except.ok.inj h).symm⟩)
          · cases h
  · rintro (⟨hc, rfl⟩ | ⟨c, hc, hk, h⟩ | ⟨c, dir, hc, hk, hr, hd, hn, rfl⟩)
    · rw [hc]
    · simp only [hc, hk, ↓reduceIte]
      exact h
    · simp only [hc, hk, ↓reduceIte, bind, Except.bind, hr, hd, Nat.not_lt.mpr hn]

theorem place_mono (h : t.Within u) {cwd l : Location} {path : Text}
    (hp : t.place cwd path = .ok l) : u.place cwd path = .ok l := by
  obtain ⟨s, cs, hs, hcase⟩ := place_eq_ok.mp hp
  refine place_eq_ok.mpr ⟨s, cs, hs, ?_⟩
  rcases hcase with hnil | ⟨c, hc, hk, hr⟩ | ⟨c, dir, hc, hk, hr, hd, hn, hl⟩
  · exact .inl hnil
  · exact .inr (.inl ⟨c, hc, hk, resolve_mono h hr⟩)
  · exact .inr (.inr ⟨c, dir, hc, hk, resolve_mono h hr, h _ _ hd, hn, hl⟩)

/-! ### Trees of one shape -/

theorem walk_congr {follow' : Location → List Text → Except Cause Location}
    (h : t.SameShape u) (hf : ∀ l cs, follow l cs = follow' l cs) (l : Location)
    (cs : List Text) : walk t follow l cs = walk u follow' l cs := by
  induction cs generalizing l with
  | nil => rfl
  | cons c rest ih =>
    rw [walk, walk]
    cases hd : t.get? l with
    | none => rw [h.none_of hd]
    | some e =>
      cases e with
      | file content mode =>
        obtain ⟨content', mode', hu⟩ := h.file_of hd
        rw [hu]
      | link target => rw [h.link_of hd]
      | directory =>
        rw [h.directory_of hd]
        by_cases hh : c = Path.here
        · simp only [hh, ↓reduceIte, ih]
        by_cases ha : c = Path.above
        · have hne : Path.above ≠ Path.here := by decide
          simp only [ha, hne, ↓reduceIte, ih]
        by_cases hn : nameLimit < (Utf8.encode c).length
        · simp only [hh, ha, hn, ↓reduceIte]
        -- what stands one name below decides the rest
        simp only [hh, ha, hn, ↓reduceIte]
        cases he : t.get? (l ++ [c]) with
        | none => rw [h.none_of he]
        | some e =>
          cases e with
          | file content mode =>
            obtain ⟨content', mode', hu⟩ := h.file_of he
            rw [hu]
            exact ih _
          | link target =>
            rw [h.link_of he]
            exact hf _ _
          | directory =>
            rw [h.directory_of he]
            exact ih _

theorem resolve_congr (h : t.SameShape u) (n : Nat) (l : Location) (cs : List Text) :
    resolve t n l cs = resolve u n l cs := by
  induction n generalizing l cs with
  | zero => exact walk_congr h (fun _ _ => rfl) l cs
  | succ n ih => exact walk_congr h ih l cs

theorem locate_congr (h : t.SameShape u) (cwd : Location) (path : Text) :
    t.locate cwd path = u.locate cwd path := by
  simp only [locate, resolve_congr h]

/-! ### The last step -/

/-- A last step `c` from a directory: a name there has an entry, and unless that is a link
the step ends there. -/
structure EndsAt (t : FileTree) (c : Text) (dir x : Location) : Prop where
  directory : t.get? dir = some .directory
  here : c = Path.here → x = dir
  above : c = Path.above → x = dir.dropLast
  named : c ≠ Path.here → c ≠ Path.above → (Utf8.encode c).length ≤ nameLimit ∧
    ∃ e, t.get? (dir ++ [c]) = some e ∧ ((∀ target, e ≠ .link target) → x = dir ++ [c])

theorem walk_snoc {c : Text} {l x : Location} {cs : List Text}
    (hf : ∀ l cs x, follow l (cs ++ [c]) = .ok x →
      ∃ dir, follow l cs = .ok dir ∧ EndsAt t c dir x)
    (hw : walk t follow l (cs ++ [c]) = .ok x) :
    ∃ dir, walk t follow l cs = .ok dir ∧ EndsAt t c dir x := by
  induction cs generalizing l with
  | nil =>
    obtain ⟨hd, hs⟩ := walk_cons_ok.mp hw
    have hne : Path.here ≠ Path.above := by decide
    refine ⟨l, walk_nil l, ?_⟩
    cases hs with
    | here hc hx =>
      exact ⟨hd, fun _ => (Except.ok.inj hx).symm, fun ha => absurd (hc.symm.trans ha) hne,
        fun hh => absurd hc hh⟩
    | above hc hx =>
      exact ⟨hd, fun hh => absurd (hh.symm.trans hc) hne, fun _ => (Except.ok.inj hx).symm,
        fun _ ha => absurd hc ha⟩
    | link hh ha hn target he _ =>
      exact ⟨hd, fun hc => absurd hc hh, fun hc => absurd hc ha,
        fun _ _ => ⟨hn, _, he, fun hl => absurd rfl (hl target)⟩⟩
    | down hh ha hn e he _ hx =>
      exact ⟨hd, fun hc => absurd hc hh, fun hc => absurd hc ha,
        fun _ _ => ⟨hn, e, he, fun _ => (Except.ok.inj hx).symm⟩⟩
  | cons k rest ih =>
    obtain ⟨hd, hs⟩ := walk_cons_ok.mp hw
    cases hs with
    | here hc hx =>
      obtain ⟨dir, hr, hend⟩ := ih hx
      exact ⟨dir, walk_cons_ok.mpr ⟨hd, .here hc hr⟩, hend⟩
    | above hc hx =>
      obtain ⟨dir, hr, hend⟩ := ih hx
      exact ⟨dir, walk_cons_ok.mpr ⟨hd, .above hc hr⟩, hend⟩
    | link hh ha hn target he hx =>
      have happ : steps target ++ (rest ++ [c]) = (steps target ++ rest) ++ [c] :=
        (List.append_assoc ..).symm
      obtain ⟨dir, hr, hend⟩ := hf _ _ _ (happ ▸ hx)
      exact ⟨dir, walk_cons_ok.mpr ⟨hd, .link hh ha hn target he hr⟩, hend⟩
    | down hh ha hn e he hl hx =>
      obtain ⟨dir, hr, hend⟩ := ih hx
      exact ⟨dir, walk_cons_ok.mpr ⟨hd, .down hh ha hn e he hl hr⟩, hend⟩

theorem resolve_snoc {n : Nat} {c : Text} {l x : Location} {cs : List Text}
    (hr : resolve t n l (cs ++ [c]) = .ok x) :
    ∃ dir, resolve t n l cs = .ok dir ∧ EndsAt t c dir x := by
  induction n generalizing l cs x with
  | zero => exact walk_snoc (fun _ _ _ h => by cases h) hr
  | succ n ih => exact walk_snoc (fun _ _ _ h => ih h) hr

/-- A path that leads to an entry names a place with an entry; without links they are the
same. -/
theorem place_of_locate {cwd x : Location} {path : Text} {e : Entry}
    (hl : t.locate cwd path = .ok x) (he : t.get? x = some e) :
    ∃ l e', t.place cwd path = .ok l ∧ t.get? l = some e' ∧
      ((∀ target, e' ≠ .link target) → l = x) := by
  obtain ⟨s, cs, hs, hr⟩ := locate_eq_ok.mp hl
  rcases List.eq_nil_or_concat cs with rfl | ⟨init, c, hcs⟩
  · have hsx : s = x := Except.ok.inj hr
    subst hsx
    exact ⟨s, e, place_eq_ok.mpr ⟨s, [], hs, .inl ⟨rfl, rfl⟩⟩, he, fun _ => rfl⟩
  · rw [List.concat_eq_append] at hcs
    subst hcs
    have hlast : (init ++ [c]).getLast? = some c := by simp
    by_cases hk : c = Path.here ∨ c = Path.above
    · exact ⟨x, e, place_eq_ok.mpr ⟨s, _, hs, .inr (.inl ⟨c, hlast, hk, hr⟩)⟩, he, fun _ => rfl⟩
    · obtain ⟨dir, hdir, hend⟩ := resolve_snoc hr
      obtain ⟨hn, e', he', hx⟩ := hend.named (fun h => hk (.inl h)) (fun h => hk (.inr h))
      have hinit : (init ++ [c]).dropLast = init := List.dropLast_concat
      refine ⟨dir ++ [c], e', place_eq_ok.mpr ⟨s, _, hs, .inr (.inr ⟨c, dir, hlast, hk, ?_,
        hend.directory, hn, rfl⟩)⟩, he', fun h => (hx h).symm⟩
      rw [hinit]
      exact hdir

/-! ### Without links -/

/-- Where a step leads when nothing is a link. -/
def stepped (l : Location) (c : Text) : Location :=
  if c = Path.here then l else if c = Path.above then l.dropLast else l ++ [c]

theorem foldl_stepped_proper {cs : List Text} (h : ∀ c ∈ cs, Path.ProperName c) (l : Location) :
    cs.foldl stepped l = l ++ cs := by
  induction cs generalizing l with
  | nil => simp
  | cons c cs ih =>
    obtain ⟨-, -, hh, ha⟩ := h c (List.mem_cons_self ..)
    rw [List.foldl_cons, ih fun x hx => h x (List.mem_cons_of_mem _ hx)]
    simp [stepped, hh, ha]

theorem walk_linkFree (ht : t.LinkFree) {l x : Location} {cs : List Text}
    (hw : walk t follow l cs = .ok x) : x = cs.foldl stepped l := by
  induction cs generalizing l with
  | nil => exact (Except.ok.inj hw).symm
  | cons c rest ih =>
    obtain ⟨-, hs⟩ := walk_cons_ok.mp hw
    rw [List.foldl_cons]
    cases hs with
    | here hc hx => simpa [stepped, hc] using ih hx
    | above hc hx =>
      have hne : Path.above ≠ Path.here := by decide
      simpa [stepped, hc, hne] using ih hx
    | link _ _ _ target he _ => exact absurd he (ht _ target)
    | down hh ha _ _ _ _ hx => simpa [stepped, hh, ha] using ih hx

theorem resolve_linkFree (ht : t.LinkFree) {n : Nat} {l x : Location} {cs : List Text}
    (hr : resolve t n l cs = .ok x) : x = cs.foldl stepped l := by
  cases n with
  | zero => exact walk_linkFree ht hr
  | succ n => exact walk_linkFree ht hr

/-- Where a path starts. -/
def origin (cwd : Location) (path : Text) : Location := if Path.isAbsolute path then [] else cwd

theorem start_eq_ok {cwd s : Location} {path : Text} {cs : List Text}
    (h : start cwd path = .ok (s, cs)) : s = origin cwd path ∧ cs = steps path := by
  unfold start at h
  split at h
  · cases h
  split at h
  · cases h
  split at h
  · cases h
  cases h
  exact ⟨rfl, rfl⟩

theorem locate_steps (cwd : Location) {path : Text} (hne : path ≠ []) :
    t.locate cwd path = resolve t linkLimit (origin cwd path) (steps path) ∨
      ∃ c, (c = .invalidArgument ∨ c = .nameTooLong) ∧ t.locate cwd path = .error c := by
  unfold locate start
  split
  · exact .inr ⟨_, .inl rfl, rfl⟩
  rw [if_neg (by simpa using hne)]
  split
  · exact .inr ⟨_, .inr rfl, rfl⟩
  · exact .inl rfl

/-- Without links a path joined to a directory leads below where the directory's own
components lead, by its own names. -/
theorem locate_join (ht : t.LinkFree) {cwd l : Location} {root rel : Text} (hroot : root ≠ [])
    (h : ∀ c ∈ Text.splitAt '/' rel, Path.ProperName c)
    (hl : t.locate cwd (Path.join root rel) = .ok l) :
    l = (Path.components root).foldl stepped (origin cwd root) ++ Text.splitAt '/' rel := by
  obtain ⟨hsteps, habs⟩ := Path.steps_join hroot h
  obtain ⟨s, cs, hs, hr⟩ := locate_eq_ok.mp hl
  obtain ⟨rfl, rfl⟩ := start_eq_ok hs
  rw [resolve_linkFree ht hr, hsteps, List.foldl_append, foldl_stepped_proper h]
  simp only [origin, habs]

end AbsoluteImports.FileTree
