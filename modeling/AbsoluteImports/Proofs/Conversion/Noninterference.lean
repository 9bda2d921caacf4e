import AbsoluteImports.Proofs.Conversion.Calls
import AbsoluteImports.Proofs.Scan.Likeness

/-!
# Files do not influence each other

Two trees have the same entries, and some of their files hold different bytes. Up to the scan a
call sees no difference between them. After it, a file that holds the same in both has the same
result and ends the same, however the calls are scheduled and whatever they do to the other files;
and a file that the scan leaves out is not touched in either.
-/

namespace AbsoluteImports

theorem FileTree.Alike.properNames {t u : FileTree} (h : t.Alike u) (ht : t.ProperNames) :
    u.ProperNames := by
  rintro ⟨l, e⟩ hx
  obtain ⟨e', he', -⟩ := h.symm.entry hx
  exact ht (l, e') he'

theorem Scan.LeftOut.congr {t u : FileTree} {cwd l : Location} {root : Text} {exclude : List Text}
    (h : t.SameShape u) (hl : Scan.LeftOut t cwd root exclude l) :
    Scan.LeftOut u cwd root exclude l := by
  rcases hl with hname | ⟨dir, names, hdir, hrest⟩
  · exact .inl hname
  · rw [FileTree.locate_congr h] at hdir
    exact .inr ⟨dir, names, hdir, hrest⟩

namespace Conversion

variable {c : Converter} {faults : Faults} {tags : Text → Nat} {cwd f : Location}
  {t u : FileTree} {dir : Text} {files : List Text} {rs rs' : List Result} {a b : Run}

/-- A file that is the same in both trees has the same result alone, up to the names of temporary
files, if the same is against both names. -/
theorem alone_congr (hfiles : c.files = .faulty faults cwd) (package : Text) (hlinks : t.LinkFree)
    (h : t.Alike u) {path : Text} (hpresent : Scan.Present t cwd path)
    (hown : t.SameAt u cwd path)
    (hrefusal : t.refusal cwd path (tags path) = t.refusal cwd path (faults.tag path)) :
    (alone (c.redrawn faults cwd tags) package u path).unnamed =
      (alone c package t path).unnamed := by
  have hsame : alone (c.redrawn faults cwd tags) package u path =
      alone (c.redrawn faults cwd tags) package t path :=
    (convertFile_congr (c := c.redrawn faults cwd tags) rfl package h hown).1
  rw [hsame, alone_redrawn hlinks hpresent hfiles package hrefusal]

theorem Run.Finished.unnamed_eq (ha : a.Finished c cwd t dir files rs)
    (hb : b.Finished (c.redrawn faults cwd tags) cwd u dir files rs')
    (hfiles : c.files = .faulty faults cwd) (hlinks : t.LinkFree) (halike : t.Alike u)
    (hpresent : ∀ path ∈ files, Scan.Present t cwd path) {i : Nat} {r r' : Result}
    (hr : rs[i]? = some r) (hr' : rs'[i]? = some r') (hown : t.SameAt u cwd r.path)
    (hrefusal : t.refusal cwd r.path (tags r.path) = t.refusal cwd r.path (faults.tag r.path)) :
    r'.unnamed = r.unnamed := by
  have hpath : files[i]? = some r.path := by
    rw [← ha.paths hfiles, List.getElem?_map, hr]
    rfl
  rw [ha.result_eq hr hpath, hb.result_eq hr' hpath]
  exact alone_congr hfiles _ hlinks halike (hpresent _ (List.mem_of_getElem? hpath)) hown hrefusal

/-- A file that has the same result, if any, ends the same. -/
theorem Run.Finished.get?_eq (ha : a.Finished c cwd t dir files rs)
    (hb : b.Finished (c.redrawn faults cwd tags) cwd u dir files rs')
    (hfiles : c.files = .faulty faults cwd) (halike : t.Alike u) (hf : u.get? f = t.get? f)
    (hsame : ∀ (i : Nat) (r r' : Result), rs[i]? = some r → rs'[i]? = some r' →
      (∀ l, t.locate cwd r.path = .ok l → l = f) → r'.unnamed = r.unnamed) :
    b.tree.get? f = a.tree.get? f := by
  cases hdry : c.dryRun with
  | true => rw [ha.done.dry hdry, hb.done.dry hdry, hf]
  | false =>
    refine ((ha.done.accounts hdry).get?_eq (hb.done.accounts hdry) ?_ hf ?_ ?_).symm
    · intro path
      exact (FileTree.locate_congr halike.sameShape cwd path).symm
    · rw [ha.paths hfiles, hb.paths (Converter.files_redrawn c faults cwd tags)]
    · intro i r r' hr hr' hleads
      refine Result.outcome_of_unnamed (hsame i r r' hr hr' fun l hl => ?_)
      exact Except.ok.inj (hl.symm.trans hleads)

end Conversion

end AbsoluteImports
