import CallCensus.FileTree
import Mathlib.Tactic.Common

/-!
Where a path leads that continues another.

The segments of a continued path are those of its two parts, but for a last segment that is
empty, which changes nothing. So following the path is following one part after the other.

* `Path.segments_append_slash`, `Path.segments_of_slash_not_mem`: the segments of a path;
* `FileTree.walk_join_eq`, `FileTree.walk_join`: the location that a continued path leads to;
* `FileTree.follow_name`, `FileTree.walk_join_name`: a name leads one place further;
* `FileTree.eq_of_foldlM_follow`, `FileTree.exists_siblings`: where segments lead that never go up.
-/

namespace CallCensus

namespace Path

variable {base path : String}

lemma startsWith_slash_iff : path.startsWith "/" = true ↔ ∃ rest, path.toList = '/' :: rest := by
  rw [String.startsWith_string_iff]
  constructor
  · rintro ⟨rest, hrest⟩
    exact ⟨rest, hrest.symm⟩
  · rintro ⟨rest, hrest⟩
    exact ⟨rest, hrest.symm⟩

lemma endsWith_slash_iff : path.endsWith "/" = true ↔ ∃ start, path.toList = start ++ ['/'] := by
  have hslice : path.endsWith "/" = path.toSlice.endsWith "/" := rfl
  rw [hslice, String.Slice.endsWith_string_iff, String.copy_toSlice]
  constructor
  · rintro ⟨start, hstart⟩
    exact ⟨start, hstart.symm⟩
  · rintro ⟨start, hstart⟩
    exact ⟨start, hstart.symm⟩

/-- The segments that are already read come first. -/
lemma segmentsOnto_eq (done : List String) (segment s : List Char) :
    segmentsOnto done segment s = done.reverse ++ segmentsOnto [] segment s := by
  induction s generalizing done segment with
  | nil => simp [segmentsOnto]
  | cons c s ih =>
      simp only [segmentsOnto]
      split_ifs
      · rw [ih (String.ofList segment.reverse :: done), ih [String.ofList segment.reverse]]
        simp
      · rw [ih done]

/-- A slash divides a path. -/
lemma segmentsOnto_append_slash (segment s t : List Char) :
    segmentsOnto [] segment (s ++ '/' :: t) =
      segmentsOnto [] segment s ++ segmentsOnto [] [] t := by
  induction s generalizing segment with
  | nil =>
      have hslash : segmentsOnto [] segment ('/' :: t) =
          segmentsOnto [String.ofList segment.reverse] [] t := if_pos rfl
      rw [List.nil_append, hslash, segmentsOnto_eq]
      rfl
  | cons c s ih =>
      rw [List.cons_append, segmentsOnto, segmentsOnto]
      split_ifs
      · rw [segmentsOnto_eq, segmentsOnto_eq [_] [] s, ih, List.append_assoc]
      · exact ih _

lemma segmentsOnto_of_slash_not_mem {s : List Char} (h : '/' ∉ s) (segment : List Char) :
    segmentsOnto [] segment s = [String.ofList (segment.reverse ++ s)] := by
  induction s generalizing segment with
  | nil => simp [segmentsOnto]
  | cons c s ih =>
      obtain ⟨hc, hs⟩ : '/' ≠ c ∧ '/' ∉ s := by simpa using h
      rw [segmentsOnto, if_neg (Ne.symm hc), ih hs]
      simp

lemma segments_append_slash (s t : List Char) :
    segments (String.ofList (s ++ '/' :: t)) =
      segments (String.ofList s) ++ segments (String.ofList t) := by
  simp only [segments, String.toList_ofList]
  exact segmentsOnto_append_slash [] s t

/-- A path has a segment. -/
lemma segments_ne_nil (path : String) : segments path ≠ [] := by
  rw [segments]
  generalize path.toList = s
  suffices h : ∀ segment, segmentsOnto [] segment s ≠ [] from h []
  induction s with
  | nil => simp [segmentsOnto]
  | cons c s ih =>
      intro segment
      rw [segmentsOnto]
      split_ifs
      · rw [segmentsOnto_eq]
        simp
      · exact ih _

lemma segments_of_slash_not_mem (h : '/' ∉ path.toList) : segments path = [path] := by
  rw [segments, segmentsOnto_of_slash_not_mem h]
  simp

lemma join_eq_append_slash (hrelative : path.startsWith "/" = false) (hbase : base ≠ "")
    (hend : base.endsWith "/" = false) :
    join base path = String.ofList (base.toList ++ '/' :: path.toList) := by
  rw [join, hrelative, hend]
  simp [hbase, ← String.toList_inj]

lemma join_eq_append (hrelative : path.startsWith "/" = false)
    (hend : base.endsWith "/" = true) : join base path = base ++ path := by
  rw [join, hrelative, hend]
  simp

lemma mem_join {c : Char} (hc : c ≠ '/') (hrelative : path.startsWith "/" = false)
    (hbase : base ≠ "") :
    c ∈ (join base path).toList ↔ c ∈ base.toList ∨ c ∈ path.toList := by
  cases hend : base.endsWith "/" with
  | true => rw [join_eq_append hrelative hend, String.toList_append, List.mem_append]
  | false => simp [join_eq_append_slash hrelative hbase hend, hc]

lemma join_empty (hrelative : path.startsWith "/" = false) : join "" path = path := by
  rw [join, hrelative]
  simp

lemma join_ne_empty (hrelative : path.startsWith "/" = false) (hbase : base ≠ "") :
    join base path ≠ "" := by
  cases hend : base.endsWith "/" with
  | true => simp [join_eq_append hrelative hend, hbase]
  | false =>
      rw [join_eq_append_slash hrelative hbase hend]
      intro hempty
      simpa using congrArg String.toList hempty

lemma startsWith_join (hrelative : path.startsWith "/" = false) (hbase : base ≠ "") :
    (join base path).startsWith "/" = base.startsWith "/" := by
  rw [Bool.eq_iff_iff, startsWith_slash_iff, startsWith_slash_iff]
  obtain ⟨c, s, hs⟩ := List.exists_cons_of_ne_nil (mt String.toList_eq_nil_iff.1 hbase)
  cases hend : base.endsWith "/" with
  | true => simp [join_eq_append hrelative hend, hs]
  | false => simp [join_eq_append_slash hrelative hbase hend, hs]

/-- A text that names an entry of a directory. -/
structure IsEntryName (name : String) : Prop where
  nonempty : name ≠ ""
  slash : '/' ∉ name.toList
  null : Char.ofNat 0 ∉ name.toList
  here : name ≠ "."
  above : name ≠ ".."
  length : name.utf8ByteSize ≤ FileTree.maxNameBytes

instance (name : String) : Decidable (IsEntryName name) :=
  decidable_of_iff (name ≠ "" ∧ '/' ∉ name.toList ∧ Char.ofNat 0 ∉ name.toList ∧ name ≠ "." ∧
      name ≠ ".." ∧ name.utf8ByteSize ≤ FileTree.maxNameBytes)
    ⟨fun ⟨h₁, h₂, h₃, h₄, h₅, h₆⟩ => ⟨h₁, h₂, h₃, h₄, h₅, h₆⟩,
      fun h => ⟨h.nonempty, h.slash, h.null, h.here, h.above, h.length⟩⟩

lemma IsEntryName.startsWith_slash {name : String} (h : IsEntryName name) :
    name.startsWith "/" = false := by
  rw [Bool.eq_false_iff, Ne, startsWith_slash_iff]
  rintro ⟨rest, hrest⟩
  exact h.slash (hrest ▸ List.mem_cons_self)

lemma IsEntryName.join_ne_empty {name : String} (h : IsEntryName name) (base : String) :
    join base name ≠ "" := by
  by_cases hbase : base = ""
  · rw [hbase, join_empty h.startsWith_slash]
    exact h.nonempty
  · exact Path.join_ne_empty h.startsWith_slash hbase

/-- A path that never leads up, and does not start at the root. -/
structure Descends (path : String) : Prop where
  relative : path.startsWith "/" = false
  never_up : ".." ∉ segments path

instance (path : String) : Decidable (Descends path) :=
  decidable_of_iff (path.startsWith "/" = false ∧ ".." ∉ segments path)
    ⟨fun ⟨h₁, h₂⟩ => ⟨h₁, h₂⟩, fun h => ⟨h.relative, h.never_up⟩⟩

end Path

namespace FileTree

open CallCensus.Path

variable {t : FileTree} {base path name : String} {l m : Location}

lemma find?_of_follow {segment : String} (h : t.follow l segment = .ok m) :
    t.find? l = some .directory := by
  rw [follow] at h
  split at h
  · cases h
  · cases h
  · assumption

/-- Where a segment leads that does not go up. -/
lemma eq_of_follow {segment : String} (hup : segment ≠ "..") (h : t.follow l segment = .ok m) :
    m = l ++ [segment].filter fun s => !isIdle s := by
  have hl := find?_of_follow h
  rw [follow, hl] at h
  dsimp only at h
  split_ifs at h with hidle hparent
  · simp [hidle, ← Except.ok.inj h]
  · exact absurd (by simpa using hparent) hup
  · simp [hidle, ← Except.ok.inj h]

/-- Segments that never go up lead down, by those among them that are not idle. -/
lemma eq_of_foldlM_follow {steps : List String} (hup : ".." ∉ steps)
    (h : steps.foldlM t.follow l = .ok m) : m = l ++ steps.filter fun s => !isIdle s := by
  induction steps generalizing l with
  | nil =>
      cases h
      simp
  | cons segment steps ih =>
      rw [List.mem_cons, not_or] at hup
      rw [List.foldlM_cons] at h
      cases hk : t.follow l segment with
      | error e => simp [hk, bind, Except.bind] at h
      | ok k =>
          rw [hk] at h
          rw [ih hup.2 h, eq_of_follow (Ne.symm hup.1) hk, List.append_assoc, ← List.filter_append]
          rfl

/-- An empty segment changes nothing when another one follows. -/
lemma follow_empty_bind {steps : List String} (hsteps : steps ≠ []) :
    (t.follow l "" >>= fun m => steps.foldlM t.follow m) = steps.foldlM t.follow l := by
  obtain ⟨segment, rest, rfl⟩ := List.exists_cons_of_ne_nil hsteps
  cases hl : t.find? l with
  | none => simp [follow, hl, bind, Except.bind]
  | some place =>
      cases place with
      | file bytes => simp [follow, hl, bind, Except.bind]
      | directory =>
          have hempty : t.follow l "" = .ok l := by simp [follow, hl, isIdle]
          rw [hempty]
          rfl

lemma follow_name (hname : IsEntryName name) (hl : t.find? l = some .directory) :
    t.follow l name = .ok (l ++ [name]) := by
  have hidle : isIdle name = false := by simp [isIdle, hname.nonempty, hname.here]
  simp [follow, hl, hidle, hname.above, Nat.not_lt.2 hname.length]

lemma walk_eq (hpath : path ≠ "") (hnull : Char.ofNat 0 ∉ path.toList) :
    t.walk path =
      (segments path).foldlM t.follow (if path.startsWith "/" then [] else t.current) := by
  rw [walk, if_neg (by simpa using hpath), if_neg (by simpa using hnull)]

/-- A path that leads somewhere is not empty and holds no null character. -/
lemma of_walk_eq_ok (h : t.walk path = .ok l) :
    path ≠ "" ∧ Char.ofNat 0 ∉ path.toList := by
  rw [walk] at h
  by_cases hempty : path.isEmpty = true
  · rw [if_pos hempty] at h
    cases h
  · by_cases hnull : path.toList.contains (Char.ofNat 0) = true
    · rw [if_neg hempty, if_pos hnull] at h
      cases h
    · exact ⟨by simpa using hempty, by simpa using hnull⟩

/-- **A continued path is followed one part after the other.** -/
lemma walk_join_eq (hbase : base ≠ "") (hrelative : path.startsWith "/" = false)
    (hnull : Char.ofNat 0 ∉ path.toList) :
    t.walk (join base path) = t.walk base >>= fun l => (segments path).foldlM t.follow l := by
  have hmem := mem_join (c := Char.ofNat 0) (by decide) hrelative hbase
  have hne := join_ne_empty hrelative hbase
  by_cases hbaseNull : Char.ofNat 0 ∈ base.toList
  · have hjoin : t.walk (join base path) = .error .invalidInput := by
      rw [walk, if_neg (by simpa using hne), if_pos (by simpa using hmem.2 (.inl hbaseNull))]
    have hwalk : t.walk base = .error .invalidInput := by
      rw [walk, if_neg (by simpa using hbase), if_pos (by simpa using hbaseNull)]
    rw [hjoin, hwalk]
    rfl
  · rw [walk_eq hne (mt hmem.1 (not_or.2 ⟨hbaseNull, hnull⟩)), walk_eq hbase hbaseNull,
      startsWith_join hrelative hbase]
    cases hend : base.endsWith "/" with
    | false =>
        have hsegments : segments (join base path) = segments base ++ segments path := by
          rw [join_eq_append_slash hrelative hbase hend, segments_append_slash,
            String.ofList_toList, String.ofList_toList]
        rw [hsegments, List.foldlM_append]
    | true =>
        -- the slash at the end of the first part makes an empty segment of it
        obtain ⟨start, hlist⟩ := endsWith_slash_iff.1 hend
        have hsegments : segments base = segments (String.ofList start) ++ [""] := by
          rw [← String.ofList_toList (s := base), hlist, segments_append_slash]
          rfl
        have hsegments' : segments (join base path) =
            segments (String.ofList start) ++ segments path := by
          rw [join_eq_append hrelative hend, ← String.ofList_toList (s := base ++ path),
            String.toList_append, hlist, List.append_assoc, List.singleton_append,
            segments_append_slash, String.ofList_toList]
        rw [hsegments, hsegments', List.foldlM_append, List.foldlM_append, bind_assoc]
        refine congrArg _ (funext fun m => ?_)
        rw [List.foldlM_cons, bind_assoc]
        exact (follow_empty_bind (segments_ne_nil path)).symm

/-- A continued path leads where its second part leads from the place of the first. -/
lemma walk_join (hbase : t.walk base = .ok l) (hrelative : path.startsWith "/" = false)
    (hnull : Char.ofNat 0 ∉ path.toList) :
    t.walk (join base path) = (segments path).foldlM t.follow l := by
  rw [walk_join_eq (of_walk_eq_ok hbase).1 hrelative hnull, hbase]
  rfl

/-- A continued path that leads somewhere leads there from the place of its first part. -/
lemma exists_walk_of_walk_join (hbase : base ≠ "") (hrelative : path.startsWith "/" = false)
    (h : t.walk (join base path) = .ok m) :
    ∃ l, t.walk base = .ok l ∧ (segments path).foldlM t.follow l = .ok m := by
  have hjoin := (of_walk_eq_ok h).2
  have hnull : Char.ofNat 0 ∉ path.toList := fun hmem =>
    hjoin ((mem_join (by decide) hrelative hbase).2 (.inr hmem))
  rw [walk_join_eq hbase hrelative hnull] at h
  cases hwalk : t.walk base with
  | error e =>
      rw [hwalk] at h
      cases h
  | ok l =>
      rw [hwalk] at h
      exact ⟨l, rfl, h⟩

lemma walk_join_name (hname : IsEntryName name) (hbase : t.walk base = .ok l)
    (hl : t.find? l = some .directory) : t.walk (join base name) = .ok (l ++ [name]) := by
  rw [walk_join hbase hname.startsWith_slash hname.null, segments_of_slash_not_mem hname.slash,
    List.foldlM_cons, follow_name hname hl]
  rfl

lemma eq_of_foldlM_follow_name (hname : IsEntryName name)
    (h : (segments name).foldlM t.follow l = .ok m) : m = l ++ [name] := by
  have hup : ".." ∉ [name] := by simpa using Ne.symm hname.above
  rw [segments_of_slash_not_mem hname.slash] at h
  rw [eq_of_foldlM_follow hup h]
  simp [isIdle, hname.nonempty, hname.here]

/-- Names lead from a path to places side by side. -/
lemma exists_siblings {name' : String} (hname : IsEntryName name) (hname' : IsEntryName name')
    (h : t.walk (join base name) = .ok l) (h' : t.walk (join base name') = .ok m) :
    ∃ k, l = k ++ [name] ∧ m = k ++ [name'] := by
  by_cases hbase : base = ""
  · subst hbase
    rw [join_empty hname.startsWith_slash, walk_eq hname.nonempty hname.null,
      hname.startsWith_slash] at h
    rw [join_empty hname'.startsWith_slash, walk_eq hname'.nonempty hname'.null,
      hname'.startsWith_slash] at h'
    exact ⟨t.current, eq_of_foldlM_follow_name hname h, eq_of_foldlM_follow_name hname' h'⟩
  · obtain ⟨k, hk, hl⟩ := exists_walk_of_walk_join hbase hname.startsWith_slash h
    obtain ⟨k', hk', hm⟩ := exists_walk_of_walk_join hbase hname'.startsWith_slash h'
    cases hk.symm.trans hk'
    exact ⟨k, eq_of_foldlM_follow_name hname hl, eq_of_foldlM_follow_name hname' hm⟩

end FileTree

end CallCensus
