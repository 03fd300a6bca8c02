import CallCensus.Proofs.FileTree.Paths

/-!
The entries of a directory and what is read at their paths.

In a well-formed tree no two places have the same location and files have proper names. What is
listed in a directory is then what is found at the path of the entry.

* `FileTree.WellFormed`: well-formed trees;
* `FileTree.mem_children_iff`: the entries of a directory;
* `FileTree.look_join_of_mem`: reading an entry by its path.
-/

namespace CallCensus.FileTree

open CallCensus.Path

variable {t : FileTree} {l : Location} {name directory : String} {place : Place}
  {bytes : ByteArray} {entries : List (String × Place)}

/-- A tree whose locations are distinct, and whose files have names that a path can hold. -/
structure WellFormed (t : FileTree) : Prop where
  distinct : (t.places.map Prod.fst).Nodup
  names : ∀ l name bytes, (l ++ [name], Place.file bytes) ∈ t.places → IsEntryName name

/-- The entries of a directory are the places one name further. -/
lemma mem_children_iff : (name, place) ∈ t.children l ↔ (l ++ [name], place) ∈ t.places := by
  rw [children, List.mem_filterMap]
  constructor
  · rintro ⟨⟨l', place'⟩, hmem, hentry⟩
    dsimp only at hentry
    split at hentry
    · cases hentry
    · rename_i last hlast
      split_ifs at hentry with hl
      cases hentry
      obtain ⟨before, rfl⟩ := List.getLast?_eq_some_iff.1 hlast
      rwa [← hl, List.dropLast_concat]
  · intro hmem
    refine ⟨_, hmem, ?_⟩
    simp

/-- What is at a location is found there. -/
lemma WellFormed.find?_of_mem (h : t.WellFormed) (hl : l ≠ []) (hmem : (l, place) ∈ t.places) :
    t.find? l = some place := by
  obtain ⟨before, after, hsplit⟩ := List.append_of_mem hmem
  have hdistinct := h.distinct
  rw [hsplit, List.map_append, List.map_cons, List.nodup_append] at hdistinct
  have hfirst : ∀ p ∈ before, l ≠ p.1 := fun p hp =>
    (hdistinct.2.2 p.1 (List.mem_map_of_mem hp) l List.mem_cons_self).symm
  rw [find?, if_neg (by simpa using hl), List.lookup_eq_some_iff]
  exact ⟨before, after, hsplit, fun p hp => by simpa using hfirst p hp⟩

/-- The directory at a path that can be listed. -/
lemma exists_walk_of_readDirectory (h : t.readDirectory directory = .ok entries) :
    ∃ l, t.walk directory = .ok l ∧ t.find? l = some .directory ∧ entries = t.children l := by
  rw [readDirectory] at h
  split at h
  · cases h
  · rename_i l hl
    split at h
    · cases h
    · cases h
    · rename_i hfind
      exact ⟨l, hl, hfind, (Except.ok.inj h).symm⟩

lemma readDirectory_eq (hwalk : t.walk directory = .ok l) (hfind : t.find? l = some .directory) :
    t.readDirectory directory = .ok (t.children l) := by
  simp only [readDirectory, hwalk, hfind]

/-- **A file that is listed in a directory is read at its path.** -/
lemma WellFormed.look_join_of_mem (h : t.WellFormed)
    (hdir : t.readDirectory directory = .ok entries) (hmem : (name, .file bytes) ∈ entries) :
    t.look (join directory name) = .ok (.file bytes) := by
  obtain ⟨l, hwalk, hfind, rfl⟩ := exists_walk_of_readDirectory hdir
  have hplace := mem_children_iff.1 hmem
  have hname := h.names l name bytes hplace
  rw [look, walk_join_name hname hwalk hfind]
  simp only [h.find?_of_mem (by simp) hplace]

end CallCensus.FileTree
