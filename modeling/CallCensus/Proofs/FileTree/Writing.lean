import CallCensus.Proofs.FileTree.Paths
import Mathlib.Data.Set.Lattice

/-!
What writing changes in a file tree.

Putting something at a location changes nothing at any other location. Directories are made only
where there was nothing, and files are written only where there is no directory, so a directory
stays one, and a path that leads somewhere leads there still.

* `FileTree.ChangesOnly`: how a tree differs from another at most;
* `FileTree.ChangesOnly.trans`: one writing after another;
* `FileTree.ChangesOnly.walk`: paths lead where they did;
* `FileTree.way`, `FileTree.parents`: the places on the way to a path;
* `FileTree.changesOnly_makeDirectories`, `FileTree.changesOnly_writeFile`: the changes of each
  kind of writing.
-/

namespace CallCensus.FileTree

open CallCensus.Path

variable {t t₁ t' : FileTree} {l m : Location} {path segment : String} {steps : List String}
  {place : Place} {bytes : ByteArray} {made made₁ written written₁ : Set Location}

/-! ### Putting something at a location -/

lemma ne_nil_of_find?_ne (h : t.find? l ≠ some .directory) : l ≠ [] := by
  rintro rfl
  exact h rfl

/-- What stands at a location in a list of places when another location is given a new place. -/
lemma lookup_replace (places : List (Location × Place)) (hm : m ≠ l) :
    (places.map fun p => if p.1 = l then (l, place) else p).lookup m = places.lookup m := by
  induction places with
  | nil => rfl
  | cons p places ih =>
      obtain ⟨k, here⟩ := p
      rw [List.map_cons]
      by_cases hk : k = l
      · subst hk
        rw [if_pos rfl, List.lookup_cons, List.lookup_cons, beq_false_of_ne hm]
        exact ih
      · rw [if_neg hk, List.lookup_cons, List.lookup_cons, ih]

/-- What stands at the location itself then. -/
lemma lookup_replace_self {places : List (Location × Place)} (h : (places.lookup l).isSome) :
    (places.map fun p => if p.1 = l then (l, place) else p).lookup l = some place := by
  induction places with
  | nil => cases h
  | cons p places ih =>
      obtain ⟨k, here⟩ := p
      rw [List.map_cons]
      by_cases hk : k = l
      · rw [if_pos hk, List.lookup_cons, beq_self_eq_true]
      · rw [List.lookup_cons, beq_false_of_ne (Ne.symm hk)] at h
        rw [if_neg hk, List.lookup_cons, beq_false_of_ne (Ne.symm hk)]
        exact ih h

/-- What is put at a location is found there. -/
lemma find?_put_self (hl : l ≠ []) : (t.put l place).find? l = some place := by
  have hempty : l.isEmpty = false := by simpa using hl
  rw [put]
  split
  · rename_i hsome
    rw [find?, hempty] at hsome ⊢
    exact lookup_replace_self hsome
  · rename_i hnone
    rw [find?, hempty] at hnone ⊢
    simp only [Bool.false_eq_true, if_false, Option.isSome_iff_ne_none, not_not] at hnone ⊢
    rw [List.lookup_append, hnone]
    simp

lemma find?_put_of_ne (hm : m ≠ l) : (t.put l place).find? m = t.find? m := by
  rw [put]
  split
  · simp only [find?, lookup_replace _ hm]
  · simp [find?, List.lookup_append, List.lookup_cons, beq_false_of_ne hm]

@[simp]
lemma current_put : (t.put l place).current = t.current := by
  rw [put]
  split <;> rfl

/-! ### How trees differ -/

/-- A tree that differs from another at most by files, at the locations in `written`, and by new
directories, at the locations in `made`. -/
structure ChangesOnly (t t' : FileTree) (made written : Set Location) : Prop where
  current : t'.current = t.current
  others : ∀ l ∉ written, t'.find? l = t.find? l ∨
    l ∈ made ∧ t.find? l = none ∧ t'.find? l = some .directory
  files : ∀ l ∈ written, t.find? l ≠ some .directory ∧ ∃ bytes, t'.find? l = some (.file bytes)

namespace ChangesOnly

lemma refl (t : FileTree) : ChangesOnly t t ∅ ∅ :=
  ⟨rfl, fun _ _ => .inl rfl, fun _ h => h.elim⟩

lemma mono (h : ChangesOnly t t' made written) (hmade : made ⊆ made₁) :
    ChangesOnly t t' made₁ written :=
  ⟨h.current, fun l hl => (h.others l hl).imp_right (And.imp_left (@hmade l)), h.files⟩

lemma find?_directory (h : ChangesOnly t t' made written) (hl : t.find? l = some .directory) :
    t'.find? l = some .directory := by
  have hunwritten : l ∉ written := fun hmem => (h.files l hmem).1 hl
  rcases h.others l hunwritten with hsame | ⟨-, hnone, -⟩
  · exact hsame.trans hl
  · rw [hl] at hnone
    cases hnone

/-- A file stays one, and it stays as it is where nothing is written. -/
lemma find?_file (h : ChangesOnly t t' made written) (hl : t.find? l = some (.file bytes))
    (hunwritten : l ∉ written) : t'.find? l = some (.file bytes) := by
  rcases h.others l hunwritten with hsame | ⟨-, hnone, -⟩
  · exact hsame.trans hl
  · rw [hl] at hnone
    cases hnone

/-- One change after another. -/
lemma trans (h : ChangesOnly t t₁ made written) (h₁ : ChangesOnly t₁ t' made₁ written₁) :
    ChangesOnly t t' (made ∪ made₁) (written ∪ written₁) := by
  refine ⟨h₁.current.trans h.current, fun l hl => ?_, fun l hl => ?_⟩
  · rw [Set.mem_union, not_or] at hl
    rcases h.others l hl.1 with hsame | ⟨hmade, hnone, hnew⟩
    · rcases h₁.others l hl.2 with hsame₁ | ⟨hmade₁, hnone₁, hnew₁⟩
      · exact .inl (hsame₁.trans hsame)
      · exact .inr ⟨.inr hmade₁, hsame.symm.trans hnone₁, hnew₁⟩
    · exact .inr ⟨.inl hmade, hnone, h₁.find?_directory hnew⟩
  · by_cases hlast : l ∈ written₁
    · refine ⟨fun hdirectory => ?_, (h₁.files l hlast).2⟩
      exact (h₁.files l hlast).1 (h.find?_directory hdirectory)
    · have hfirst : l ∈ written := hl.resolve_right hlast
      obtain ⟨hno, bytes, hbytes⟩ := h.files l hfirst
      exact ⟨hno, bytes, h₁.find?_file hbytes hlast⟩

/-! ### Paths lead where they did -/

lemma follow (h : ChangesOnly t t' made written) (hfollow : t.follow l segment = .ok m) :
    t'.follow l segment = .ok m := by
  rw [FileTree.follow] at hfollow ⊢
  cases hl : t.find? l with
  | none => simp [hl] at hfollow
  | some place =>
      cases place with
      | file bytes => simp [hl] at hfollow
      | directory =>
          rw [h.find?_directory hl]
          rw [hl] at hfollow
          exact hfollow

lemma foldlM_follow (h : ChangesOnly t t' made written)
    (hfollow : steps.foldlM t.follow l = .ok m) : steps.foldlM t'.follow l = .ok m := by
  induction steps generalizing l with
  | nil => exact hfollow
  | cons segment steps ih =>
      rw [List.foldlM_cons] at hfollow ⊢
      cases hk : t.follow l segment with
      | error e => simp [hk, bind, Except.bind] at hfollow
      | ok k =>
          rw [hk] at hfollow
          rw [h.follow hk]
          exact ih hfollow

/-- **A path that leads somewhere leads there still.** -/
lemma walk (h : ChangesOnly t t' made written) (hwalk : t.walk path = .ok l) :
    t'.walk path = .ok l := by
  obtain ⟨hne, hnull⟩ := of_walk_eq_ok hwalk
  rw [walk_eq hne hnull] at hwalk ⊢
  rw [h.current]
  exact h.foldlM_follow hwalk

end ChangesOnly

/-- The places that steps lead through from a location, with the one that they lead to. -/
def way (t : FileTree) (l : Location) (steps : List String) : Set Location :=
  {m | ∃ part, part <+: steps ∧ part.foldlM t.follow l = .ok m}

/-- The places that a path leads through, with the one that it leads to. -/
def onTheWay (t : FileTree) (path : String) : Set Location :=
  t.way (if path.startsWith "/" then [] else t.current) (segments path)

/-- What is on the way after a step is on the way. -/
lemma way_subset (hfollow : t.follow l segment = .ok m) :
    insert m (t.way m steps) ⊆ t.way l (segment :: steps) := by
  rintro k (rfl | ⟨part, hpart, hk⟩)
  · refine ⟨[segment], by simp, ?_⟩
    rw [List.foldlM_cons, hfollow]
    rfl
  · refine ⟨segment :: part, by simpa using hpart, ?_⟩
    rw [List.foldlM_cons, hfollow]
    exact hk

/-- The places on the way to a path, with the one that its directory part leads to. -/
def parents (t : FileTree) (path : String) : Set Location :=
  {l | ∃ parent ∈ parent? path, l ∈ t.onTheWay parent}

lemma ChangesOnly.parents_subset (h : ChangesOnly t t' made written) (path : String) :
    t.parents path ⊆ t'.parents path := by
  rintro l ⟨parent, hparent, part, hpart, hl⟩
  refine ⟨parent, hparent, part, hpart, ?_⟩
  rw [h.current]
  exact h.foldlM_follow hl

/-! ### Making directories and writing files -/

lemma changesOnly_put_directory (hl : t.find? l = none) :
    ChangesOnly t (t.put l .directory) {l} ∅ := by
  refine ⟨current_put, fun m _ => ?_, fun _ h => h.elim⟩
  by_cases hm : m = l
  · subst hm
    have hroot : m ≠ [] := ne_nil_of_find?_ne (t := t) (by simp [hl])
    exact .inr ⟨rfl, hl, find?_put_self hroot⟩
  · exact .inl (find?_put_of_ne hm)

/-- A file where there was no directory. -/
lemma changesOnly_put_file (hl : t.find? l ≠ some .directory) :
    ChangesOnly t (t.put l (.file bytes)) ∅ {l} := by
  refine ⟨current_put, fun m hm => .inl (find?_put_of_ne hm), ?_⟩
  rintro m rfl
  exact ⟨hl, bytes, find?_put_self (ne_nil_of_find?_ne hl)⟩

/-- Directories are made along the way only. -/
lemma changesOnly_makeAlong (h : t.makeAlong l steps = (t', .ok ())) :
    ChangesOnly t t' (t'.way l steps) ∅ := by
  induction steps generalizing t l with
  | nil =>
      cases h
      exact (ChangesOnly.refl _).mono (Set.empty_subset _)
  | cons segment steps ih =>
      rw [makeAlong] at h
      cases hfollow : t.follow l segment with
      | error e =>
          rw [hfollow] at h
          cases h
      | ok k =>
          rw [hfollow] at h
          dsimp only at h
          -- the step leads to `k` in the tree at the end too
          cases hfind : t.find? k with
          | none =>
              rw [hfind] at h
              have hchanges := (changesOnly_put_directory hfind).trans (ih h)
              rw [Set.singleton_union, Set.union_empty] at hchanges
              exact hchanges.mono (way_subset (hchanges.follow hfollow))
          | some place =>
              rw [hfind] at h
              cases place with
              | file bytes => cases h
              | directory =>
                  have hchanges := ih h
                  have hway := @way_subset _ _ _ _ steps (hchanges.follow hfollow)
                  exact hchanges.mono (Set.Subset.trans (Set.subset_insert _ _) hway)

/-- **Directories are made where there was nothing on the way of the path.** -/
lemma changesOnly_makeDirectories (h : t.makeDirectories path = (t', .ok ())) :
    ChangesOnly t t' (t'.onTheWay path) ∅ := by
  rw [makeDirectories] at h
  by_cases hempty : path.isEmpty = true
  · rw [if_pos hempty] at h
    cases h
    exact (ChangesOnly.refl _).mono (Set.empty_subset _)
  · by_cases hnull : path.toList.contains (Char.ofNat 0) = true
    · rw [if_neg hempty, if_pos hnull] at h
      cases h
    · rw [if_neg hempty, if_neg hnull] at h
      have hchanges := changesOnly_makeAlong h
      simpa only [onTheWay, hchanges.current] using hchanges

/-- **A file is written where its path leads, and nowhere else.** -/
lemma changesOnly_writeFile (h : t.writeFile path bytes = (t', .ok ())) :
    ∃ l, t'.walk path = .ok l ∧ t'.find? l = some (.file bytes) ∧ ChangesOnly t t' ∅ {l} := by
  rw [writeFile] at h
  cases hwalk : t.walk path with
  | error e =>
      rw [hwalk] at h
      cases h
  | ok l =>
      rw [hwalk] at h
      dsimp only at h
      split at h
      · cases h
      · rename_i hl
        cases h
        have hchanges : ChangesOnly t (t.put l (.file bytes)) ∅ {l} := changesOnly_put_file hl
        exact ⟨l, hchanges.walk hwalk, find?_put_self (ne_nil_of_find?_ne hl), hchanges⟩

end CallCensus.FileTree
