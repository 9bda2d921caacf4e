import AbsoluteImports.Proofs.Conversion.FileStep
import AbsoluteImports.Proofs.Scan.Separation

/-!
# What a run does to the whole tree

The results of a run account for every entry of the tree: the entry that a result leads to is
what the result says, and any entry that no result leads to is what it was. The main statement
is `run_accounts`, for every tree without links and any mix of files that fail.
-/

namespace AbsoluteImports

/-- What a result says became of the entry that its path leads to. -/
def Result.Explains (package : Text) (r : Result) (before after : Option Entry) : Prop :=
  match r.outcome with
  | .updated => ∃ content mode text encoding, before = some (.file content mode) ∧
      Encoding.decode content = .ok (text, encoding) ∧
      after = some (.file (Encoding.encode (absoluteText package text) encoding) mode) ∧
      ∃ p ∈ Document.cut text, absoluteLine package p.1 ≠ p.1
  | .unchanged => after = before ∧ ∃ content mode text encoding,
      before = some (.file content mode) ∧ Encoding.decode content = .ok (text, encoding) ∧
      ∀ p ∈ Document.cut text, absoluteLine package p.1 = p.1
  | .failed => after = before
  | .unknown => False

theorem Result.Explains.unique {package : Text} {r r' : Result} {before after after' : Option Entry}
    (houtcome : r'.outcome = r.outcome) (h : r.Explains package before after)
    (h' : r'.Explains package before after') : after = after' := by
  simp only [Result.Explains, houtcome] at h h'
  cases ho : r.outcome with
  | updated =>
    simp only [ho] at h h'
    obtain ⟨content, mode, text, encoding, hbefore, hdecode, hafter, -⟩ := h
    obtain ⟨content', mode', text', encoding', hbefore', hdecode', hafter', -⟩ := h'
    rw [hbefore] at hbefore'
    cases hbefore'
    rw [hdecode] at hdecode'
    cases hdecode'
    rw [hafter, hafter']
  | unchanged =>
    simp only [ho] at h h'
    rw [h.1, h'.1]
  | failed =>
    simp only [ho] at h h'
    rw [h, h']
  | unknown => simp only [ho] at h

namespace Conversion

variable {c : Converter} {cwd : Location} {package path : Text} {t left : FileTree} {r : Result}

/-! ### One file -/

/-- Without links the file that was read is the one that is replaced. -/
theorem locate_of_place (hl : t.LinkFree) {content : Bytes} {l : Location} {mode : Nat}
    (hread : t.readFile cwd path = .ok content) (hplace : t.place cwd path = .ok l)
    (hmode : t.replacedMode cwd path = .ok mode) :
    t.locate cwd path = .ok l ∧ t.get? l = some (.file content mode) := by
  obtain ⟨x, m, hx, hfile⟩ := FileTree.readFile_eq_ok.mp hread
  obtain ⟨l', e, hplace', he, hsame⟩ := FileTree.place_of_locate hx hfile
  have hll : l = l' := Except.ok.inj (hplace.symm.trans hplace')
  have hlx : l' = x := hsame fun target ht => hl l' target (ht ▸ he)
  have hm : mode = m :=
    Except.ok.inj (hmode.symm.trans (FileTree.replacedMode_of_locate hx hfile))
  rw [hll, hlx, hm]
  exact ⟨hx, hfile⟩

theorem Converts.path_eq (h : Converts c cwd package t path r left) : r.path = path := by
  cases h <;> rfl

theorem Converts.located (h : Converts c cwd package t path r left)
    (hr : r.outcome ≠ .failed) : ∃ l, t.locate cwd path = .ok l := by
  cases h with
  | failed => exact absurd rfl hr
  | unchanged content text encoding hread =>
    obtain ⟨l, _, hl, _⟩ := FileTree.readFile_eq_ok.mp hread
    exact ⟨l, hl⟩
  | reported content text encoding hdry hread =>
    obtain ⟨l, _, hl, _⟩ := FileTree.readFile_eq_ok.mp hread
    exact ⟨l, hl⟩
  | updated content text encoding l old mode left hdry hread =>
    obtain ⟨l, _, hl, _⟩ := FileTree.readFile_eq_ok.mp hread
    exact ⟨l, hl⟩

theorem Converts.frame (h : Converts c cwd package t path r left) (hl : t.LinkFree)
    {m : Location} (hm : t.locate cwd path ≠ .ok m) : left.get? m = t.get? m := by
  cases h with
  | failed e left same => exact same m
  | unchanged => rfl
  | reported => rfl
  | updated content text encoding l old mode left hdry hread hdecode hlines hplace hold hmode
      hleft =>
    have hne : m ≠ l := fun he => hm (he ▸ (locate_of_place hl hread hplace hmode).1)
    rw [hleft, if_neg hne]

theorem Converts.sameShape (h : Converts c cwd package t path r left) (hl : t.LinkFree) :
    t.SameShape left := by
  cases h with
  | failed e left same => exact .of_view same
  | unchanged => exact .of_view fun _ => rfl
  | reported => exact .of_view fun _ => rfl
  | updated content text encoding l old mode left hdry hread hdecode hlines hplace hold hmode
      hleft =>
    intro m
    rw [hleft]
    split
    · rename_i hm
      rw [hm, (locate_of_place hl hread hplace hmode).2]
      rfl
    · rfl

theorem Converts.explains (h : Converts c cwd package t path r left) (hl : t.LinkFree)
    (hdry : c.dryRun = false) {l : Location} (hx : t.locate cwd path = .ok l) :
    r.Explains package (t.get? l) (left.get? l) := by
  cases h with
  | failed e left same => exact same l
  | unchanged content text encoding hread hdecode hlines =>
    obtain ⟨x, mode, hx', hfile⟩ := FileTree.readFile_eq_ok.mp hread
    have hlx : l = x := Except.ok.inj (hx.symm.trans hx')
    rw [hlx]
    exact ⟨rfl, content, mode, text, encoding, hfile, hdecode, hlines⟩
  | reported content text encoding hdry' =>
    rw [hdry] at hdry'
    cases hdry'
  | updated content text encoding l' old mode left _ hread hdecode hlines hplace hold hmode
      hleft =>
    obtain ⟨hx', hfile⟩ := locate_of_place hl hread hplace hmode
    have hll : l = l' := Except.ok.inj (hx.symm.trans hx')
    rw [hll]
    exact ⟨content, mode, text, encoding, hfile, hdecode, by rw [hleft, if_pos rfl], hlines⟩

/-! ### A list of files -/

/-- A list of results accounts for what became of a whole tree. -/
structure Accounts (package : Text) (cwd : Location) (results : List Result)
    (t left : FileTree) : Prop where
  /-- Every result but a failure leads to an entry. -/
  located : ∀ r ∈ results, r.outcome ≠ .failed → ∃ l, t.locate cwd r.path = .ok l
  /-- The entry that a result leads to is what the result says. -/
  explained : ∀ r ∈ results, ∀ l, t.locate cwd r.path = .ok l →
    r.Explains package (t.get? l) (left.get? l)
  /-- Anywhere else nothing changed, and there is an entry only where one was. -/
  untouched : ∀ l, (∀ r ∈ results, t.locate cwd r.path ≠ .ok l) → left.get? l = t.get? l

theorem Accounts.nil (package : Text) (cwd : Location) (t : FileTree) :
    Accounts package cwd [] t t :=
  ⟨by simp, by simp, fun _ _ => rfl⟩

/-- What becomes of an entry depends on what it was and on the outcome of the results that lead to
it, and on nothing else of the tree. -/
theorem Accounts.get?_eq {u left' : FileTree} {rs rs' : List Result} {l : Location}
    (h : Accounts package cwd rs t left) (h' : Accounts package cwd rs' u left')
    (hlocate : ∀ path, u.locate cwd path = t.locate cwd path) (hl : u.get? l = t.get? l)
    (hpaths : rs.map (·.path) = rs'.map (·.path))
    (hsame : ∀ (i : Nat) (r r' : Result), rs[i]? = some r → rs'[i]? = some r' →
      t.locate cwd r.path = .ok l → r'.outcome = r.outcome) : left.get? l = left'.get? l := by
  by_cases hleads : ∃ r ∈ rs, t.locate cwd r.path = .ok l
  · obtain ⟨r, hr, hrl⟩ := hleads
    obtain ⟨i, hi⟩ := List.getElem?_of_mem hr
    have hpath : (rs'.map (·.path))[i]? = some r.path := by
      rw [← hpaths, List.getElem?_map, hi]
      rfl
    rw [List.getElem?_map] at hpath
    obtain ⟨r', hi', hrr⟩ := Option.map_eq_some_iff.mp hpath
    have hexplains' := h'.explained r' (List.mem_of_getElem? hi') l (by rw [hlocate, hrr, hrl])
    rw [hl] at hexplains'
    exact (h.explained r hr l hrl).unique (hsame i r r' hi hi' hrl) hexplains'
  · rw [h.untouched l fun r hr hrl => hleads ⟨r, hr, hrl⟩, h'.untouched l ?_, hl]
    intro r' hr' hrl
    have hpath : r'.path ∈ rs.map (·.path) := by
      rw [hpaths]
      exact List.mem_map.mpr ⟨r', hr', rfl⟩
    obtain ⟨r, hr, hrr⟩ := List.mem_map.mp hpath
    exact hleads ⟨r, hr, by rw [hrr, ← hlocate, hrl]⟩

theorem Accounts.cons {mid : FileTree} {rs : List Result}
    (h : Converts c cwd package t path r mid) (hl : t.LinkFree) (hdry : c.dryRun = false)
    (hrs : Accounts package cwd rs mid left)
    (hapart : ∀ r' ∈ rs, ∀ l, t.locate cwd path = .ok l → t.locate cwd r'.path ≠ .ok l) :
    Accounts package cwd (r :: rs) t left := by
  have hmid : ∀ p, mid.locate cwd p = t.locate cwd p :=
    fun p => (FileTree.locate_congr (h.sameShape hl) cwd p).symm
  refine ⟨?_, ?_, ?_⟩
  · intro r' hr' hne
    rcases List.mem_cons.mp hr' with rfl | hr'
    · rw [h.path_eq]
      exact h.located hne
    · obtain ⟨l, hl'⟩ := hrs.located r' hr' hne
      exact ⟨l, (hmid _).symm.trans hl'⟩
  · intro r' hr' l hx
    rcases List.mem_cons.mp hr' with rfl | hr'
    · rw [h.path_eq] at hx
      have hrest : left.get? l = mid.get? l :=
        hrs.untouched l fun r'' hr'' hx' => hapart r'' hr'' l hx ((hmid _).symm.trans hx')
      rw [hrest]
      exact h.explains hl hdry hx
    · have hother : t.locate cwd path ≠ .ok l := fun hp => hapart r' hr' l hp hx
      rw [← h.frame hl hother]
      exact hrs.explained r' hr' l ((hmid _).trans hx)
  · intro l hnone
    have hhead : t.locate cwd path ≠ .ok l := by
      rw [← h.path_eq]
      exact hnone r (List.mem_cons_self ..)
    rw [← h.frame hl hhead]
    refine hrs.untouched l fun r' hr' hx => ?_
    exact hnone r' (List.mem_cons_of_mem _ hr') ((hmid _).symm.trans hx)

theorem convertFiles_paths (c : Converter) (package : Text)
    (cancel : Cancellation) (reads : Nat) (t : FileTree) (paths : List Text) :
    ((convertFiles c package cancel reads t paths).1.map (·.result.path)) <+: paths := by
  induction paths generalizing reads t with
  | nil => simp [convertFiles]
  | cons path rest ih =>
    rw [convertFiles]
    split
    · simp
    · simp only [List.map_cons, convertFile_path]
      exact List.cons_prefix_cons.mpr ⟨rfl, ih (reads + 1) _⟩

theorem convertFiles_complete (h : c.files.PlainOrFails cwd) {package : Text}
    {cancel : Cancellation} {reads : Nat} {t : FileTree} {paths : List Text}
    (hc : cancel.seen (reads + (convertFiles c package cancel reads t paths).1.length) = false) :
    (convertFiles c package cancel reads t paths).1.map (·.result.path) = paths := by
  induction paths generalizing reads t with
  | nil => simp [convertFiles]
  | cons path rest ih =>
    rw [convertFiles] at hc ⊢
    split
    · rename_i hseen
      simp only [hseen, ↓reduceIte, List.length_nil, Nat.add_zero] at hc
      cases hc
    · rename_i hseen
      simp only [hseen, Bool.false_eq_true, ↓reduceIte, List.length_cons] at hc
      simp only [List.map_cons, (convertFile_converts h package t path).path_eq]
      rw [ih (by rw [← hc]; congr 1; omega)]

/-- The results of the files account for the tree, wherever the run stopped. -/
theorem convertFiles_accounts (h : c.files.PlainOrFails cwd) (hdry : c.dryRun = false)
    (package : Text) (cancel : Cancellation) (reads : Nat) {t : FileTree} {paths : List Text}
    (hl : t.LinkFree) (hapart : Scan.Apart t cwd paths) :
    Accounts package cwd ((convertFiles c package cancel reads t paths).1.map (·.result)) t
      (convertFiles c package cancel reads t paths).2 := by
  induction paths generalizing reads t with
  | nil => exact .nil package cwd t
  | cons path rest ih =>
    rw [convertFiles]
    split
    · exact .nil package cwd t
    · have hconv := convertFile_converts h package t path
      have hshape := hconv.sameShape hl
      obtain ⟨hfirst, hrest⟩ := List.pairwise_cons.mp hapart
      have hrest' : Scan.Apart (convertFile c package t path).tree cwd rest := by
        refine hrest.imp fun {p q} hpq l hp hq => ?_
        rw [← FileTree.locate_congr hshape] at hp hq
        exact hpq l hp hq
      refine Accounts.cons hconv hl hdry (ih (reads + 1) (hshape.linkFree hl) hrest') ?_
      -- the paths of the later results are among the later files
      intro r' hr' l hx
      obtain ⟨run, hrun, rfl⟩ := List.mem_map.mp hr'
      have hmem : run.result.path ∈ rest :=
        (convertFiles_paths c package cancel (reads + 1) _ rest).subset
          (List.mem_map.mpr ⟨run, hrun, rfl⟩)
      exact hfirst _ hmem l hx

/-! ### The whole run -/

theorem seen_of_seen_zero {cancel : Cancellation} (h : cancel.seen 0 = true) (n : Nat) :
    cancel.seen n = true := by
  cases cancel with
  | never => cases h
  | beforehand => rfl
  | duringRead k =>
    simp only [Cancellation.seen, Bool.and_eq_true, decide_eq_true_eq] at h
    omega

/-- A run over a package without links that returns no error has one result for each file of
the scan, in its order, and its results account for every entry of the tree. -/
theorem run_accounts (c : Converter) (cancel : Cancellation) (t : FileTree) (cwd : Location)
    (dir : Text) (hnames : t.ProperNames) (hlinks : t.LinkFree)
    (hfiles : c.files.PlainOrFails cwd) (hdry : c.dryRun = false)
    (hroot : Package.isRoot c.files t dir = .ok true)
    (hok : (run c cancel t cwd dir).error = none) :
    ∃ files events summary,
      Scan.pythonFiles t cwd dir c.exclude false = (.ok files, events) ∧
      (run c cancel t cwd dir).summary = some summary ∧
      summary.results.map (·.path) = files ∧
      Accounts (Package.name cwd dir) cwd summary.results t (run c cancel t cwd dir).tree := by
  unfold run at hok ⊢
  cases hvalid : Package.validateDirectory t cwd dir with
  | error e => simp [hvalid, Run.ended] at hok
  | ok u =>
    simp only [hvalid, hroot] at hok ⊢
    obtain ⟨r, events, hscan⟩ :
        ∃ r events, Scan.pythonFiles t cwd dir c.exclude (cancel.seen 0) = (r, events) :=
      ⟨_, _, rfl⟩
    cases r with
    | error e => simp [hscan, Run.ended] at hok
    | ok files =>
      simp only [hscan] at hok ⊢
      have hend : cancel.seen
          (convertFiles c (Package.name cwd dir) cancel 0 t files).1.length = false := by
        simpa using hok
      have hstart : cancel.seen 0 = false := by
        cases h0 : cancel.seen 0 with
        | false => rfl
        | true =>
          rw [seen_of_seen_zero h0] at hend
          cases hend
      rw [hstart] at hscan
      refine ⟨files, events, _, hscan, rfl, ?_, ?_⟩
      · simp only [List.map_map]
        exact convertFiles_complete hfiles (by rw [Nat.zero_add]; exact hend)
      · exact convertFiles_accounts hfiles hdry _ cancel 0 hlinks
          (Scan.pythonFiles_apart hnames hlinks hscan)

/-- A package with a file to update in mixed terminators, one that is no text, one that is
excluded and one that is no Python file. -/
def mixedPackage : FileTree where
  entries :=
    [([['p']], .directory),
      ([['p'], Package.marker], .file [] 0o644),
      ([['p'], "a.py".toList],
        .file (Utf8.encode "import os\r\nfrom .b import c # d\n".toList) 0o600),
      ([['p'], "bad.py".toList], .file [0xFF] 0o644),
      ([['p'], "no.py".toList], .file (Utf8.encode "from .b import c\n".toList) 0o644),
      ([['p'], "no.txt".toList], .file (Utf8.encode "from .b import c\n".toList) 0o644)]
  nodup := by decide

def mixedConverter : Converter := ⟨.plain [], 1, ["no.py".toList], false⟩

theorem run_accounts_mixedPackage :
    (run mixedConverter .never mixedPackage [] ['p']).error = none ∧
    ∃ files events summary,
      Scan.pythonFiles mixedPackage [] ['p'] mixedConverter.exclude false =
        (.ok files, events) ∧
      (run mixedConverter .never mixedPackage [] ['p']).summary = some summary ∧
      summary.results.map (·.path) = files ∧
      Accounts (Package.name [] ['p']) [] summary.results mixedPackage
        (run mixedConverter .never mixedPackage [] ['p']).tree :=
  ⟨by decide, run_accounts mixedConverter .never mixedPackage [] ['p'] (by decide)
    (FileTree.linkFree_of_entries (by decide)) (FileAccess.plainOrFails_plain []) rfl rfl
    (by decide)⟩

end Conversion

end AbsoluteImports
