import CallCensus.Operators
import CallCensus.Proofs.Census.Totals
import Mathlib.Data.List.DropRight
import Mathlib.Data.List.Induction

/-!
The names of the operators of a census.

Names are trimmed before anything is said about them, so names that differ in the white space
around them are one name. Of the names that are not blank the first occurrence of each stays, and
every other occurrence gives a warning. Nothing else is lost, and what stays needs no second
treatment.

* `trimmed_trimmed`: trimming twice is trimming once;
* `Operators.occurrences`: the first occurrences of names, and the later ones;
* `Operators.distinctOnto_occurrences`: the loop that parts the two;
* `Operators.Normalises`, `Operators.ofNames?_normalises`: the operators of any list of names.
-/

namespace CallCensus

namespace Text

/-- A text without the white space at its ends has none there. -/
lemma trim_trim (s : Text) : trim (trim s) = trim s := by
  have hend : ∀ t : Text, trimEnd t = t.rdropWhile Unicode.isBlank := fun t => rfl
  have hstart : trimStart (trim s) = trim s := by
    refine List.dropWhile_eq_self_iff.2 fun hlength => ?_
    have hinit : trim s <+: trimStart s := List.rdropWhile_prefix _ _
    have hlength' : 0 < (trimStart s).length := Nat.lt_of_lt_of_le hlength hinit.length_le
    rw [hinit.getElem hlength]
    exact List.dropWhile_get_zero_not Unicode.isBlank s hlength'
  calc trim (trim s) = trimEnd (trim s) := by rw [trim, hstart]
    _ = trim s := List.rdropWhile_idempotent _ _

end Text

lemma trimmed_trimmed (name : String) : trimmed (trimmed name) = trimmed name := by
  rw [trimmed, trimmed, String.toList_ofList, Text.trim_trim]

namespace Table

lemma size_zeroRow {operators : List String} (h : operators.Nodup) :
    (zeroRow operators).size = operators.length := by
  have hkeys : (zeroRow operators).keys.Perm operators :=
    (List.perm_ext_iff_of_nodup (Dict.nodup_keys _) h).2 fun name => by
      rw [keys_zeroRow, NameSet.mem_toList_ofList]
  rw [← hkeys.length_eq, Dict.keys, List.length_map, Dict.size]

end Table

namespace Operators

variable {distribution name : String} {names : List String}

/-! ### Occurrences -/

/-- The occurrences of names in a list that come again, after an equal one, or those that do
not. -/
def occurrences (again : Bool) (names : List String) : List String :=
  (names.zipIdx.filter fun p => decide (p.1 ∈ names.take p.2) = again).map Prod.fst

/-- Whether a name at the end comes again depends on the names before it, and nothing changes
for those. -/
lemma occurrences_concat (again : Bool) (names : List String) (name : String) :
    occurrences again (names ++ [name]) =
      occurrences again names ++ if decide (name ∈ names) = again then [name] else [] := by
  have htake : ∀ p ∈ names.zipIdx, (names ++ [name]).take p.2 = names.take p.2 := by
    intro p hp
    have hlt := List.snd_lt_of_mem_zipIdx hp
    exact List.take_append_of_le_length (by omega)
  rw [occurrences, List.zipIdx_append, List.filter_append, List.map_append]
  congr 1
  · refine congrArg _ (List.filter_congr fun p hp => ?_)
    rw [htake p hp]
  · simp only [List.zipIdx_singleton, Nat.zero_add, List.filter_singleton, List.take_left']
    split_ifs <;> simp_all

/-- Every name of a list has a first occurrence. -/
lemma mem_occurrences_false : name ∈ occurrences false names ↔ name ∈ names := by
  induction names using List.reverseRecOn with
  | nil => rfl
  | append_singleton names last ih =>
      rw [occurrences_concat, List.mem_append, List.mem_append, List.mem_singleton, ih]
      by_cases hlast : last ∈ names
      · rw [decide_eq_true hlast, if_neg Bool.true_eq_false_eq_False, or_iff_left List.not_mem_nil,
          or_iff_left_of_imp fun heq => heq ▸ hlast]
      · rw [decide_eq_false hlast, if_pos rfl, List.mem_singleton]

lemma length_occurrences (names : List String) :
    (occurrences false names).length + (occurrences true names).length = names.length := by
  induction names using List.reverseRecOn with
  | nil => rfl
  | append_singleton names last ih =>
      rw [occurrences_concat, occurrences_concat]
      by_cases hlast : last ∈ names <;> simp [hlast] <;> omega

/-- Among distinct names none comes again. -/
lemma occurrences_of_nodup (h : names.Nodup) :
    occurrences false names = names ∧ occurrences true names = [] := by
  induction names using List.reverseRecOn with
  | nil => exact ⟨rfl, rfl⟩
  | append_singleton names last ih =>
      rw [List.nodup_append] at h
      have hlast : last ∉ names := fun hmem =>
        h.2.2 last hmem last List.mem_cons_self rfl
      obtain ⟨hfirst, hagain⟩ := ih h.1
      rw [occurrences_concat, occurrences_concat, hfirst, hagain]
      simp [hlast]

/-- The loop over a list of names parts the first occurrences from the others, and goes on with
the rest as it would with the whole list. -/
lemma distinctOnto_occurrences (before rest : List String) :
    distinctOnto (occurrences false before).reverse (occurrences true before).reverse rest =
      (occurrences false (before ++ rest), occurrences true (before ++ rest)) := by
  induction rest generalizing before with
  | nil => simp [distinctOnto]
  | cons name rest ih =>
      have hkept : (occurrences false before).reverse.contains name = decide (name ∈ before) := by
        rw [List.contains_reverse, List.contains_eq_mem, decide_eq_decide]
        exact mem_occurrences_false
      have hnext := ih (before ++ [name])
      rw [List.append_assoc, List.singleton_append, occurrences_concat, occurrences_concat]
        at hnext
      rw [distinctOnto, hkept, ← hnext]
      by_cases hname : name ∈ before <;> simp [hname]

/-- The names that the loop keeps, and those that it warns of. -/
lemma distinctOnto_eq (names : List String) :
    distinctOnto [] [] names = (occurrences false names, occurrences true names) :=
  distinctOnto_occurrences [] names

lemma nodup_occurrences_false (names : List String) : (occurrences false names).Nodup := by
  have hnodup : (distinctOnto [] [] names).1.Nodup := nodup_distinctOnto .nil
  rwa [distinctOnto_eq] at hnodup

lemma occurrences_eq_nil_iff : occurrences false names = [] ↔ names = [] := by
  simp only [List.eq_nil_iff_forall_not_mem, mem_occurrences_false]

/-! ### The operators of a list of names -/

lemma mem_presentNames :
    name ∈ presentNames names ↔ name ≠ "" ∧ ∃ given ∈ names, trimmed given = name := by
  rw [presentNames, List.mem_filter, List.mem_map, and_comm]
  simp

lemma presentNames_eq_nil_iff : presentNames names = [] ↔ ∀ given ∈ names, trimmed given = "" := by
  simp [presentNames]

lemma presentNames_eq_self (h : ∀ name ∈ names, name ≠ "" ∧ trimmed name = name) :
    presentNames names = names := by
  have htrimmed : names.map trimmed = names := by
    rw [List.map_congr_left fun name hname => (h name hname).2, List.map_id']
  rw [presentNames, htrimmed, List.filter_eq_self]
  exact fun name hname => by simpa using (h name hname).1

/-- What operators and warnings a list of names gives. -/
structure Normalises (distribution : String) (names : List String) (o : Operators)
    (notices : List Notice) : Prop where
  belongs : o.distribution = distribution
  kept : o.names = occurrences false (presentNames names)
  proper : ∀ name ∈ o.names, name ≠ "" ∧ trimmed name = name
  distinct : o.names.Nodup
  mem_iff : ∀ name, name ∈ o.names ↔ name ≠ "" ∧ ∃ given ∈ names, trimmed given = name
  warned : notices = (occurrences true (presentNames names)).map (repeatNotice distribution)
  length : o.names.length + notices.length = (presentNames names).length
  again : ofNames? distribution o.names = .ok (o, [])
  rows : ∀ archives, (∀ archive ∈ archives, ((Table.dense archives o.names).row? archive).isSome) ∧
    ∀ archive row, (Table.dense archives o.names).row? archive = some row →
      row.size = o.names.length

lemma ofNames?_eq (distribution : String) (names : List String) :
    ofNames? distribution names =
      if h : occurrences false (presentNames names) = [] then
        .error (.config (.noOperators distribution))
      else
        .ok (⟨distribution, occurrences false (presentNames names), h,
            nodup_occurrences_false (presentNames names)⟩,
          (occurrences true (presentNames names)).map (repeatNotice distribution)) := by
  simp only [ofNames?, distinctOnto_eq]

/-- **Operator lists are normalised without loss.** A list of names has no operators if and only if
all its names are blank. Otherwise its operators are the first occurrences of its names that are
not blank, trimmed and in order; every other occurrence gives a warning; the names of the result
have the same operators again, without warnings; and in every dense table for them each row has
one cell for each. -/
theorem ofNames?_normalises (distribution : String) (names : List String) :
    ((∃ cause, ofNames? distribution names = .error cause) ↔
      ∀ name ∈ names, trimmed name = "") ∧
    (∀ cause, ofNames? distribution names = .error cause →
      cause = .config (.noOperators distribution)) ∧
    ∀ o notices, ofNames? distribution names = .ok (o, notices) →
      Normalises distribution names o notices := by
  have hblank : occurrences false (presentNames names) = [] ↔
      ∀ name ∈ names, trimmed name = "" :=
    occurrences_eq_nil_iff.trans presentNames_eq_nil_iff
  by_cases hnone : occurrences false (presentNames names) = []
  · rw [ofNames?_eq, dif_pos hnone]
    exact ⟨iff_of_true ⟨_, rfl⟩ (hblank.1 hnone),
      fun cause hcause => (Except.error.inj hcause).symm, fun o notices hok => nomatch hok⟩
  rw [ofNames?_eq, dif_neg hnone]
  refine ⟨iff_of_false (fun ⟨_, hcause⟩ => nomatch hcause) (mt hblank.2 hnone),
    (fun cause hcause => nomatch hcause), ?_⟩
  rintro o notices ⟨⟩
  have hmem : ∀ name, name ∈ occurrences false (presentNames names) ↔
      name ≠ "" ∧ ∃ given ∈ names, trimmed given = name := fun name =>
    mem_occurrences_false.trans mem_presentNames
  have hproper : ∀ name ∈ occurrences false (presentNames names),
      name ≠ "" ∧ trimmed name = name := by
    intro name hname
    obtain ⟨hne, given, -, rfl⟩ := (hmem name).1 hname
    exact ⟨hne, trimmed_trimmed given⟩
  have hdistinct := nodup_occurrences_false (presentNames names)
  constructor
  case belongs => rfl
  case kept => rfl
  case proper => exact hproper
  case distinct => exact hdistinct
  case mem_iff => exact hmem
  case warned => rfl
  case length => rw [List.length_map, length_occurrences]
  case again =>
    obtain ⟨hfirst, hagain⟩ := occurrences_of_nodup hdistinct
    simp only [ofNames?_eq, presentNames_eq_self hproper, hfirst, hagain, List.map_nil]
    rw [dif_neg hnone]
  case rows =>
    refine fun archives => ⟨fun archive harchive => ?_, fun archive row hrow => ?_⟩
    · rw [Table.row?_dense, if_pos harchive]
      rfl
    · rw [Table.row?_dense] at hrow
      split_ifs at hrow
      exact Option.some_inj.1 hrow ▸ Table.size_zeroRow hdistinct

/-- Names that differ in the white space around them are one name. -/
example : (ofNames? "RxJava" [" map", "\t", "filter", "map\u00a0"]).map
      (fun r => (r.1.names, r.2.length)) = .ok (["map", "filter"], 1) := by
  decide +kernel

end Operators

end CallCensus
