import CallCensus.App.Output
import CallCensus.Proofs.FileTree.Writing

/-!
What saving texts changes in a file tree.

To save a text is to make the directories on the way to its path and to write its bytes where the
path leads. When several texts are saved, each is where its path leads as long as no two paths lead
to one place.

* `changesOnly_save`: what changes when a text is saved;
* `Wrote`: a tree after some texts were saved;
* `wrote_nil`, `Wrote.save`: no text, and one more.
-/

namespace CallCensus.App

variable {t t₁ t' : FileTree} {path : String} {text : Text} {saved : List (String × Text)}
  {l : Location} {made written : Set Location}

lemma eq_write_of_write {problem : Problem}
    (h : Output.save.write path text t = (t', .error problem)) :
    ∃ path' why, problem = .write path' why := by
  rw [Output.save.write] at h
  split at h
  · cases h
    exact ⟨_, _, rfl⟩
  · cases h

/-- A problem with saving is a problem with writing. -/
lemma eq_write_of_save {problem : Problem}
    (h : Output.save t path text = (t', .error problem)) :
    ∃ path' why, problem = .write path' why := by
  rw [Output.save] at h
  split at h
  · exact eq_write_of_write h
  · split at h
    · cases h
      exact ⟨_, _, rfl⟩
    · exact eq_write_of_write h

lemma changesOnly_write (h : Output.save.write path text t = (t', .ok ())) :
    ∃ l, t'.walk path = .ok l ∧ t'.find? l = some (.file (String.ofList text).toUTF8) ∧
      t.ChangesOnly t' ∅ {l} := by
  rw [Output.save.write] at h
  split at h
  · cases h
  · rename_i hfile
    cases h
    exact FileTree.changesOnly_writeFile hfile

/-- **A text is saved where its path leads**; besides, directories are made on the way to it. -/
lemma changesOnly_save (h : Output.save t path text = (t', .ok ())) :
    ∃ l, t'.walk path = .ok l ∧ t'.find? l = some (.file (String.ofList text).toUTF8) ∧
      t.ChangesOnly t' (t'.parents path) {l} := by
  rw [Output.save] at h
  split at h
  · obtain ⟨l, hl, hfile, hchanges⟩ := changesOnly_write h
    exact ⟨l, hl, hfile, hchanges.mono (Set.empty_subset _)⟩
  · rename_i parent hparent
    split at h
    · cases h
    · rename_i t₁ hmake
      obtain ⟨l, hl, hfile, hchanges⟩ := changesOnly_write h
      have hmade := FileTree.changesOnly_makeDirectories hmake
      have hparents : t₁.onTheWay parent ⊆ t₁.parents path :=
        fun k hk => ⟨parent, hparent, hk⟩
      have hboth := (hmade.mono hparents).trans hchanges
      rw [Set.union_empty, Set.empty_union] at hboth
      exact ⟨l, hl, hfile, hboth.mono (hchanges.parents_subset path)⟩

/-- A tree after some texts were saved in another. It differs by the files that their paths lead
to, and by directories on the way to them. The files hold the texts if no two paths lead to one
place. -/
structure Wrote (t t' : FileTree) (saved : List (String × Text)) : Prop where
  changes : t.ChangesOnly t' {l | ∃ o ∈ saved, l ∈ t'.parents o.1}
    {l | ∃ o ∈ saved, t'.walk o.1 = .ok l}
  leads : ∀ o ∈ saved, ∃ l, t'.walk o.1 = .ok l
  contents : saved.Pairwise (fun o o' => t'.walk o.1 ≠ t'.walk o'.1) →
    ∀ o ∈ saved, t'.readFile o.1 = .ok (String.ofList o.2).toUTF8

/-- The bytes of a file are read at its path. -/
lemma readFile_eq_ok_iff {bytes : ByteArray} : t.readFile path = .ok bytes ↔
    ∃ l, t.walk path = .ok l ∧ t.find? l = some (.file bytes) := by
  rw [FileTree.readFile, FileTree.look]
  cases t.walk path with
  | error e => simp
  | ok l =>
      cases hl : t.find? l with
      | none => simp [hl]
      | some place => cases place <;> simp [hl]

lemma wrote_nil (t : FileTree) : Wrote t t [] := by
  refine ⟨?_, by simp, by simp⟩
  simpa using FileTree.ChangesOnly.refl t

namespace Wrote

lemma walk_eq (h : Wrote t t₁ saved) (hchanges : t₁.ChangesOnly t' made written)
    {o : String × Text} (ho : o ∈ saved) : t'.walk o.1 = t₁.walk o.1 := by
  obtain ⟨l, hl⟩ := h.leads o ho
  rw [hl, hchanges.walk hl]

/-- The places that were written, with one more. -/
lemma written_append (h : Wrote t t₁ saved) (hchanges : t₁.ChangesOnly t' made {l})
    (hl : t'.walk path = .ok l) :
    {k | ∃ o ∈ saved ++ [(path, text)], t'.walk o.1 = .ok k} =
      {k | ∃ o ∈ saved, t₁.walk o.1 = .ok k} ∪ {l} := by
  ext k
  constructor
  · rintro ⟨o, ho, hk⟩
    rcases List.mem_append.1 ho with ho | ho
    · exact .inl ⟨o, ho, (h.walk_eq hchanges ho).symm.trans hk⟩
    · cases List.mem_singleton.1 ho
      exact .inr (Except.ok.inj (hk.symm.trans hl))
  · rintro (⟨o, ho, hk⟩ | rfl)
    · exact ⟨o, List.mem_append_left _ ho, hchanges.walk hk⟩
    · exact ⟨_, List.mem_append_right _ List.mem_cons_self, hl⟩

/-- What was saved stays where the next path does not lead. -/
lemma readFile_of_apart (h : Wrote t t₁ saved) (hchanges : t₁.ChangesOnly t' made {l})
    (hbefore : saved.Pairwise fun o o' => t'.walk o.1 ≠ t'.walk o'.1) {o : String × Text}
    (ho : o ∈ saved) (hapart : t'.walk o.1 ≠ .ok l) :
    t'.readFile o.1 = .ok (String.ofList o.2).toUTF8 := by
  have hbefore₁ : saved.Pairwise fun o o' => t₁.walk o.1 ≠ t₁.walk o'.1 := by
    refine hbefore.imp_of_mem fun {o o'} ho ho' hne => ?_
    rwa [h.walk_eq hchanges ho, h.walk_eq hchanges ho'] at hne
  obtain ⟨k, hk, hbytes⟩ := readFile_eq_ok_iff.1 (h.contents hbefore₁ o ho)
  have hk' := hchanges.walk hk
  have hkl : k ∉ ({l} : Set Location) := by
    rintro rfl
    exact hapart hk'
  exact readFile_eq_ok_iff.2 ⟨k, hk', hchanges.find?_file hbytes hkl⟩

/-- **One more text is saved.** -/
lemma save (h : Wrote t t₁ saved) (hsave : Output.save t₁ path text = (t', .ok ())) :
    Wrote t t' (saved ++ [(path, text)]) := by
  obtain ⟨l, hl, hfile, hchanges⟩ := changesOnly_save hsave
  refine ⟨?_, fun o ho => ?_, fun hapart o ho => ?_⟩
  · rw [h.written_append hchanges hl]
    refine (h.changes.trans hchanges).mono ?_
    rintro k (⟨o, ho, hk⟩ | hk)
    · exact ⟨o, List.mem_append_left _ ho, hchanges.parents_subset _ hk⟩
    · exact ⟨_, List.mem_append_right _ List.mem_cons_self, hk⟩
  · rcases List.mem_append.1 ho with ho | ho
    · rw [h.walk_eq hchanges ho]
      exact h.leads o ho
    · cases List.mem_singleton.1 ho
      exact ⟨l, hl⟩
  · obtain ⟨hbefore, -, hlast⟩ := List.pairwise_append.1 hapart
    rcases List.mem_append.1 ho with ho | ho
    · refine h.readFile_of_apart hchanges hbefore ho fun hwalk => ?_
      exact hlast o ho _ List.mem_cons_self (hwalk.trans hl.symm)
    · cases List.mem_singleton.1 ho
      exact readFile_eq_ok_iff.2 ⟨l, hl, hfile⟩

end Wrote

end CallCensus.App
