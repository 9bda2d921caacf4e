import AbsoluteImports.Proofs.FileTree.Links
import Mathlib.Logic.Relation

/-!
# What stands in the way of a path

A path is followed step by step, through links, until it comes to its end or to a step that cannot
be made. `Advances` lists the steps that can be made and `Obstructs` what stands in the way of the
others. Following a path is nothing else: it leads to a location exactly when its steps end there,
and it fails for a cause exactly when they come to an obstacle of that cause.
-/

namespace AbsoluteImports.FileTree

open Relation (ReflTransGen)

variable {t : FileTree} {n : Nat} {l x cwd : Location} {cs : List Text} {c : Cause} {path : Text}

/-! ### Single steps -/

/-- A point on the way: where it is, the steps ahead, and the links that may still be followed. -/
structure Point where
  links : Nat
  location : Location
  ahead : List Text

variable {p q : Point}

inductive Advances (t : FileTree) : Point → Point → Prop
  | here {n : Nat} {l : Location} {rest : List Text} (hd : t.get? l = some .directory) :
      Advances t ⟨n, l, Path.here :: rest⟩ ⟨n, l, rest⟩
  | above {n : Nat} {l : Location} {rest : List Text} (hd : t.get? l = some .directory) :
      Advances t ⟨n, l, Path.above :: rest⟩ ⟨n, l.dropLast, rest⟩
  | down {n : Nat} {l : Location} {name : Text} {rest : List Text} {e : Entry}
      (hd : t.get? l = some .directory) (hh : name ≠ Path.here) (ha : name ≠ Path.above)
      (hn : (Utf8.encode name).length ≤ nameLimit) (he : t.get? (l ++ [name]) = some e)
      (hl : ∀ target, e ≠ .link target) :
      Advances t ⟨n, l, name :: rest⟩ ⟨n, l ++ [name], rest⟩
  | link {n : Nat} {l : Location} {name target : Text} {rest : List Text}
      (hd : t.get? l = some .directory) (hh : name ≠ Path.here) (ha : name ≠ Path.above)
      (hn : (Utf8.encode name).length ≤ nameLimit)
      (he : t.get? (l ++ [name]) = some (.link target)) :
      Advances t ⟨n + 1, l, name :: rest⟩
        ⟨n, if Path.isAbsolute target then [] else l, steps target ++ rest⟩

inductive Obstructs (t : FileTree) : Point → Cause → Prop
  /-- There are steps ahead, but not in a directory. -/
  | notDirectory {n : Nat} {l : Location} {name : Text} {rest : List Text}
      (hd : t.get? l ≠ some .directory) : Obstructs t ⟨n, l, name :: rest⟩ .notDirectory
  | nameTooLong {n : Nat} {l : Location} {name : Text} {rest : List Text}
      (hd : t.get? l = some .directory) (hh : name ≠ Path.here) (ha : name ≠ Path.above)
      (hn : nameLimit < (Utf8.encode name).length) :
      Obstructs t ⟨n, l, name :: rest⟩ .nameTooLong
  | noEntry {n : Nat} {l : Location} {name : Text} {rest : List Text}
      (hd : t.get? l = some .directory) (hh : name ≠ Path.here) (ha : name ≠ Path.above)
      (hn : (Utf8.encode name).length ≤ nameLimit) (he : t.get? (l ++ [name]) = none) :
      Obstructs t ⟨n, l, name :: rest⟩ .noEntry
  | tooManyLinks {l : Location} {name target : Text} {rest : List Text}
      (hd : t.get? l = some .directory) (hh : name ≠ Path.here) (ha : name ≠ Path.above)
      (hn : (Utf8.encode name).length ≤ nameLimit)
      (he : t.get? (l ++ [name]) = some (.link target)) :
      Obstructs t ⟨0, l, name :: rest⟩ .tooManyLinks

theorem Advances.resolve_eq (h : Advances t p q) :
    resolve t p.links p.location p.ahead = resolve t q.links q.location q.ahead := by
  cases h with
  | @here n l rest hd =>
    show resolve t n l (Path.here :: rest) = resolve t n l rest
    cases n with
    | zero => exact walk_here hd rest
    | succ n => exact walk_here hd rest
  | @above n l rest hd =>
    show resolve t n l (Path.above :: rest) = resolve t n l.dropLast rest
    cases n with
    | zero => exact walk_above hd rest
    | succ n => exact walk_above hd rest
  | @down n l name rest e hd hh ha hn he hl =>
    show resolve t n l (name :: rest) = resolve t n (l ++ [name]) rest
    cases n with
    | zero => exact walk_down hd hh ha (Nat.not_lt.mpr hn) he hl rest
    | succ n => exact walk_down hd hh ha (Nat.not_lt.mpr hn) he hl rest
  | @link n l name target rest hd hh ha hn he =>
    show walk t (resolve t n) l (name :: rest) = resolve t n _ (steps target ++ rest)
    rw [walk, hd]
    simp only [hh, ha, Nat.not_lt.mpr hn, ↓reduceIte, he]

theorem Obstructs.resolve_eq (h : Obstructs t p c) :
    resolve t p.links p.location p.ahead = .error c := by
  have hwalk : ∀ follow, (p.links = 0 → follow = fun _ _ => .error .tooManyLinks) →
      walk t follow p.location p.ahead = .error c := by
    intro follow hfollow
    cases h with
    | notDirectory hd => exact walk_of_not_directory hd _ _
    | nameTooLong hd hh ha hn =>
      rw [walk, hd]
      simp only [hh, ha, hn, ↓reduceIte]
    | noEntry hd hh ha hn he =>
      rw [walk, hd]
      simp only [hh, ha, Nat.not_lt.mpr hn, ↓reduceIte, he]
    | tooManyLinks hd hh ha hn he =>
      rw [walk, hd, hfollow rfl]
      simp only [hh, ha, Nat.not_lt.mpr hn, ↓reduceIte, he]
  obtain ⟨n, l, cs⟩ := p
  cases n with
  | zero => exact hwalk _ fun _ => rfl
  | succ n => exact hwalk _ fun h => absurd h (Nat.succ_ne_zero n)

/-- A point is the end of the way, or it has a next one, or something stands in the way. -/
theorem Point.progress (t : FileTree) (p : Point) :
    p.ahead = [] ∨ (∃ q, Advances t p q) ∨ ∃ c, Obstructs t p c := by
  obtain ⟨n, l, cs⟩ := p
  cases cs with
  | nil => exact .inl rfl
  | cons name rest =>
    right
    by_cases hd : t.get? l = some .directory
    · by_cases hh : name = Path.here
      · subst hh
        exact .inl ⟨_, .here hd⟩
      by_cases ha : name = Path.above
      · subst ha
        exact .inl ⟨_, .above hd⟩
      by_cases hn : nameLimit < (Utf8.encode name).length
      · exact .inr ⟨_, .nameTooLong hd hh ha hn⟩
      have hshort : (Utf8.encode name).length ≤ nameLimit := by omega
      cases he : t.get? (l ++ [name]) with
      | none => exact .inr ⟨_, .noEntry hd hh ha hshort he⟩
      | some e =>
        cases e with
        | file content mode => exact .inl ⟨_, .down hd hh ha hshort he nofun⟩
        | directory => exact .inl ⟨_, .down hd hh ha hshort he nofun⟩
        | link target =>
          cases n with
          | zero => exact .inr ⟨_, .tooManyLinks hd hh ha hshort he⟩
          | succ n => exact .inl ⟨_, .link hd hh ha hshort he⟩
    · exact .inr ⟨_, .notDirectory hd⟩

/-! ### The whole way -/

theorem resolve_eq_of_advances (h : ReflTransGen (Advances t) p q) :
    resolve t p.links p.location p.ahead = resolve t q.links q.location q.ahead := by
  induction h with
  | refl => rfl
  | tail _ hstep ih => exact ih.trans hstep.resolve_eq

/-- A link brings new steps, but leaves fewer links; any other step leaves fewer steps. -/
theorem Advances.shrinks (h : Advances t p q) :
    q.links < p.links ∨ q.links = p.links ∧ q.ahead.length < p.ahead.length := by
  cases h with
  | here => exact .inr ⟨rfl, Nat.lt_succ_self _⟩
  | above => exact .inr ⟨rfl, Nat.lt_succ_self _⟩
  | down => exact .inr ⟨rfl, Nat.lt_succ_self _⟩
  | link => exact .inl (Nat.lt_succ_self _)

theorem exists_last_point (t : FileTree) (p : Point) :
    ∃ q, ReflTransGen (Advances t) p q ∧ (q.ahead = [] ∨ ∃ c, Obstructs t q c) := by
  rcases Point.progress t p with hend | ⟨q, hq⟩ | hobstacle
  · exact ⟨p, .refl, .inl hend⟩
  · obtain ⟨last, hlast, hends⟩ := exists_last_point t q
    exact ⟨last, .head hq hlast, hends⟩
  · exact ⟨p, .refl, .inr hobstacle⟩
termination_by (p.links, p.ahead.length)
decreasing_by
  rcases hq.shrinks with hlinks | ⟨hlinks, hahead⟩
  · exact .left _ _ hlinks
  · rw [hlinks]
    exact .right _ hahead

theorem resolve_last (t : FileTree) (p : Point) :
    ∃ q, ReflTransGen (Advances t) p q ∧
      (q.ahead = [] ∧ resolve t p.links p.location p.ahead = .ok q.location ∨
        ∃ c, Obstructs t q c ∧ resolve t p.links p.location p.ahead = .error c) := by
  obtain ⟨q, hway, hends⟩ := exists_last_point t p
  have hsame := resolve_eq_of_advances hway
  refine ⟨q, hway, ?_⟩
  rcases hends with hend | ⟨c, hobstacle⟩
  · left
    rw [hend, resolve_nil] at hsame
    exact ⟨hend, hsame⟩
  · right
    rw [hobstacle.resolve_eq] at hsame
    exact ⟨c, hobstacle, hsame⟩

theorem resolve_eq_ok_iff :
    resolve t n l cs = .ok x ↔ ∃ k, ReflTransGen (Advances t) ⟨n, l, cs⟩ ⟨k, x, []⟩ := by
  constructor
  · intro h
    obtain ⟨⟨k, m, ahead⟩, hway, ⟨hend, hm⟩ | ⟨c, -, herror⟩⟩ := resolve_last t ⟨n, l, cs⟩
    · have hnil : ahead = [] := hend
      subst hnil
      obtain rfl : x = m := Except.ok.inj (h.symm.trans hm)
      exact ⟨k, hway⟩
    · cases h.symm.trans herror
  · intro h
    obtain ⟨k, hway⟩ := h
    exact (resolve_eq_of_advances hway).trans (resolve_nil k x)

theorem resolve_eq_error_iff :
    resolve t n l cs = .error c ↔
      ∃ p, ReflTransGen (Advances t) ⟨n, l, cs⟩ p ∧ Obstructs t p c := by
  constructor
  · intro h
    obtain ⟨p, hway, ⟨-, hm⟩ | ⟨c', hobstacle, herror⟩⟩ := resolve_last t ⟨n, l, cs⟩
    · cases h.symm.trans hm
    · obtain rfl : c = c' := Except.error.inj (h.symm.trans herror)
      exact ⟨p, hway, hobstacle⟩
  · intro h
    obtain ⟨p, hway, hobstacle⟩ := h
    exact (resolve_eq_of_advances hway).trans hobstacle.resolve_eq

/-! ### Paths -/

/-- The point that a path starts from. -/
def Point.ofPath (cwd : Location) (path : Text) : Point := ⟨linkLimit, origin cwd path, steps path⟩

/-- A path that can be followed at all. -/
structure Usable (path : Text) : Prop where
  noNull : '\x00' ∉ path
  nonempty : path ≠ []
  short : (Utf8.encode path).length < pathLimit

/-- The way of a path ends at a location. -/
structure Arrives (t : FileTree) (cwd : Location) (path : Text) (l : Location) : Prop where
  usable : Usable path
  way : ∃ k, ReflTransGen (Advances t) (.ofPath cwd path) ⟨k, l, []⟩

/-- The way of a path does not come to its end, for a cause. -/
inductive Blocked (t : FileTree) (cwd : Location) (path : Text) : Cause → Prop
  | null (h : '\x00' ∈ path) : Blocked t cwd path .invalidArgument
  | empty (h : path = []) : Blocked t cwd path .noEntry
  | long (hnull : '\x00' ∉ path) (h : pathLimit ≤ (Utf8.encode path).length) :
      Blocked t cwd path .nameTooLong
  | obstacle {p : Point} {c : Cause} (usable : Usable path)
      (way : ReflTransGen (Advances t) (.ofPath cwd path) p) (h : Obstructs t p c) :
      Blocked t cwd path c

theorem locate_of_null (h : '\x00' ∈ path) : t.locate cwd path = .error .invalidArgument := by
  unfold locate start
  rw [if_pos (by simpa using h)]
  rfl

theorem locate_of_long (hnull : '\x00' ∉ path) (h : pathLimit ≤ (Utf8.encode path).length) :
    t.locate cwd path = .error .nameTooLong := by
  have hempty : path ≠ [] := by
    intro hnil
    subst hnil
    cases h
  unfold locate start
  rw [if_neg (by simpa using hnull), if_neg (by simpa using hempty), if_pos h]
  rfl

theorem locate_of_usable (h : Usable path) :
    t.locate cwd path = resolve t linkLimit (origin cwd path) (steps path) := by
  have hshort : ¬pathLimit ≤ (Utf8.encode path).length := Nat.not_le.mpr h.short
  unfold locate start
  rw [if_neg (by simpa using h.noNull), if_neg (by simpa using h.nonempty), if_neg hshort]
  rfl

theorem Blocked.locate_eq (h : Blocked t cwd path c) : t.locate cwd path = .error c := by
  cases h with
  | null hnull => exact locate_of_null hnull
  | empty hempty =>
    subst hempty
    rfl
  | long hnull hlong => exact locate_of_long hnull hlong
  | obstacle husable hway hobstacle =>
    rw [locate_of_usable husable]
    exact resolve_eq_error_iff.mpr ⟨_, hway, hobstacle⟩

theorem Arrives.locate_eq (h : Arrives t cwd path l) : t.locate cwd path = .ok l := by
  rw [locate_of_usable h.usable]
  exact resolve_eq_ok_iff.mpr h.way

theorem arrives_or_blocked (t : FileTree) (cwd : Location) (path : Text) :
    (∃ l, Arrives t cwd path l) ∨ ∃ c, Blocked t cwd path c := by
  by_cases hnull : '\x00' ∈ path
  · exact .inr ⟨_, .null hnull⟩
  by_cases hempty : path = []
  · exact .inr ⟨_, .empty hempty⟩
  by_cases hlong : pathLimit ≤ (Utf8.encode path).length
  · exact .inr ⟨_, .long hnull hlong⟩
  have husable : Usable path := ⟨hnull, hempty, Nat.not_le.mp hlong⟩
  cases hresolve : resolve t linkLimit (origin cwd path) (steps path) with
  | ok l => exact .inl ⟨l, husable, resolve_eq_ok_iff.mp hresolve⟩
  | error c =>
    obtain ⟨p, hway, hobstacle⟩ := resolve_eq_error_iff.mp hresolve
    exact .inr ⟨c, .obstacle husable hway hobstacle⟩

theorem locate_eq_ok_iff : t.locate cwd path = .ok l ↔ Arrives t cwd path l := by
  refine ⟨fun h => ?_, Arrives.locate_eq⟩
  rcases arrives_or_blocked t cwd path with ⟨m, hm⟩ | ⟨c, hc⟩
  · obtain rfl : l = m := Except.ok.inj (h.symm.trans hm.locate_eq)
    exact hm
  · cases h.symm.trans hc.locate_eq

theorem locate_eq_error_iff : t.locate cwd path = .error c ↔ Blocked t cwd path c := by
  refine ⟨fun h => ?_, Blocked.locate_eq⟩
  rcases arrives_or_blocked t cwd path with ⟨m, hm⟩ | ⟨c', hc⟩
  · cases h.symm.trans hm.locate_eq
  · obtain rfl : c = c' := Except.error.inj (h.symm.trans hc.locate_eq)
    exact hc

end AbsoluteImports.FileTree
