import CallCensus.Dict
import Mathlib.Tactic.Common

/-!
What can be read in a dictionary.

A dictionary is a sorted list of entries, so reading it tells everything about it: its entries
are the pairs of a key and the value that is read there, and dictionaries in which the same is
read are equal.

* `Dict.mem_entries_iff`, `Dict.mem_keys_iff`, `Dict.nodup_keys`: entries and keys;
* `Dict.eq_of_get?_eq`: equal readings, equal dictionaries;
* `Dict.get?_ofList_map`, `Dict.exists_modify?`: what is read in a dictionary that was made
  from a list of names, or in which one value was changed.
-/

namespace CallCensus

namespace Dict

variable {α : Type}

/-- The entries of a dictionary are the pairs of a key and the value that is read there. -/
lemma mem_entries_iff {d : Dict α} {e : String × α} : e ∈ d.entries ↔ d.get? e.1 = some e.2 := by
  rw [get?, List.lookup_eq_some_iff]
  constructor
  · intro he
    obtain ⟨before, after, hsplit⟩ := List.append_of_mem he
    refine ⟨before, after, hsplit, fun b hb => ?_⟩
    have hsorted := d.sorted
    rw [hsplit, List.pairwise_append] at hsorted
    have hlt : b.1 < e.1 := hsorted.2.2 b hb e List.mem_cons_self
    simpa using fun heq : e.1 = b.1 => String.lt_irrefl b.1 (heq ▸ hlt)
  · rintro ⟨before, after, hsplit, -⟩
    rw [hsplit]
    exact List.mem_append_right _ List.mem_cons_self

/-- Dictionaries in which the same is read are equal. -/
lemma eq_of_get?_eq {d e : Dict α} (h : ∀ key, d.get? key = e.get? key) : d = e := by
  have hnodup : ∀ c : Dict α, c.entries.Nodup := fun c =>
    c.sorted.imp fun {a b} (hlt : a.1 < b.1) (heq : a = b) => String.lt_irrefl b.1 (heq ▸ hlt)
  have hperm : d.entries.Perm e.entries :=
    (List.perm_ext_iff_of_nodup (hnodup d) (hnodup e)).2 fun x => by
      rw [mem_entries_iff, mem_entries_iff, h]
  exact ext (hperm.eq_of_pairwise (fun a b _ _ hab hba => absurd hba (String.lt_asymm hab))
    d.sorted e.sorted)

lemma mem_keys_iff {d : Dict α} {key : String} : key ∈ d.keys ↔ (d.get? key).isSome := by
  rw [keys, get?, List.lookup_isSome_iff, List.mem_map]
  constructor
  · rintro ⟨e, he, rfl⟩
    exact ⟨e, he, by simp⟩
  · rintro ⟨e, he, hkey⟩
    exact ⟨e, he, (by simpa using hkey : key = e.1).symm⟩

lemma sorted_keys (d : Dict α) : d.keys.Pairwise (· < ·) :=
  List.pairwise_map.2 d.sorted

lemma nodup_keys (d : Dict α) : d.keys.Nodup :=
  d.sorted_keys.imp fun {a b} (h : a < b) (heq : a = b) => String.lt_irrefl b (heq ▸ h)

lemma keys_eq_of_isSome_eq {β : Type} {d : Dict α} {e : Dict β}
    (h : ∀ key, (d.get? key).isSome = (e.get? key).isSome) : d.keys = e.keys := by
  have hperm : d.keys.Perm e.keys :=
    (List.perm_ext_iff_of_nodup d.nodup_keys e.nodup_keys).2 fun key => by
      rw [mem_keys_iff, mem_keys_iff, h]
  exact hperm.eq_of_pairwise (fun a b _ _ hab hba => absurd hba (String.lt_asymm hab))
    d.sorted_keys e.sorted_keys

/-- Entries that are added one after the other. -/
lemma get?_foldl_insert (f : String → α) (names : List String) (d : Dict α) (key : String) :
    (names.foldl (fun d name => d.insert name (f name)) d).get? key =
      if key ∈ names then some (f key) else d.get? key := by
  induction names generalizing d with
  | nil => simp
  | cons name names ih =>
      rw [List.foldl_cons, ih, get?_insert]
      by_cases hname : key = name
      · subst hname
        simp
      · by_cases hnames : key ∈ names <;> simp [hname, hnames]

lemma get?_ofList_map (f : String → α) (names : List String) (key : String) :
    (ofList (names.map fun name => (name, f name))).get? key =
      if key ∈ names then some (f key) else none := by
  rw [ofList, List.foldl_map, get?_foldl_insert, get?_empty]

/-- An entry whose key is greater than all others goes to the end. -/
lemma insertInto_of_forall_lt {key : String} {l : List (String × α)} (h : ∀ e ∈ l, e.1 < key)
    (value : α) : insertInto key value l = l ++ [(key, value)] := by
  induction l with
  | nil => rfl
  | cons e l ih =>
      obtain ⟨he, hl⟩ := List.forall_mem_cons.1 h
      have hlt : ¬key < e.1 := String.lt_asymm he
      have hne : key ≠ e.1 := fun heq => String.lt_irrefl _ (heq ▸ he)
      rw [insertInto, if_neg hlt, if_neg hne, ih hl, List.cons_append]

/-- Entries in increasing order are kept as they are. -/
lemma entries_foldl_insert {l : List (String × α)} {d : Dict α}
    (h : (d.entries ++ l).Pairwise fun a b => a.1 < b.1) :
    (l.foldl (fun d e => d.insert e.1 e.2) d).entries = d.entries ++ l := by
  induction l generalizing d with
  | nil => simp
  | cons e l ih =>
      have hd : ∀ b ∈ d.entries, b.1 < e.1 := fun b hb =>
        (List.pairwise_append.1 h).2.2 b hb e List.mem_cons_self
      have hinsert : (d.insert e.1 e.2).entries = d.entries ++ [e] :=
        insertInto_of_forall_lt hd e.2
      rw [List.foldl_cons, ih, hinsert, List.append_assoc, List.singleton_append]
      rwa [hinsert, List.append_assoc, List.singleton_append]

lemma ofList_entries (d : Dict α) : ofList d.entries = d :=
  ext ((entries_foldl_insert (d := .empty) d.sorted).trans (List.nil_append _))

/-- Changing a value needs one, and changes nothing else. -/
lemma exists_modify? {d : Dict α} {key : String} {value : α} (f : α → α)
    (h : d.get? key = some value) : ∃ e, d.modify? key f = some e ∧
      ∀ other, e.get? other = if other = key then some (f value) else d.get? other :=
  ⟨_, by rw [modify?, h, Option.map_some], get?_insert d key (f value)⟩

end Dict

lemma NameSet.mem_toList_ofList {names : List String} {name : String} :
    name ∈ (NameSet.ofList names).toList ↔ name ∈ names := by
  rw [NameSet.toList, Dict.mem_keys_iff, NameSet.ofList,
    Dict.get?_ofList_map (fun _ => ()) names name]
  split_ifs with h <;> simp [h]

end CallCensus
