/-!
Dictionaries with names as keys.

A dictionary is a list of entries in strictly increasing order of their keys, so equal
dictionaries are equal lists, whatever was inserted in which order. Names are compared
character by character, which is also the order of their UTF-8 bytes.

* `Dict.insert`, `Dict.get?`: writing and reading one entry;
* `Dict.get?_insert`: what is read after an entry was written;
* `NameSet`: sets of names, as dictionaries without values.
-/

namespace CallCensus

/-- A dictionary: entries in increasing order of their keys. -/
structure Dict (α : Type) where
  entries : List (String × α)
  sorted : entries.Pairwise fun a b => a.1 < b.1

namespace Dict

variable {α β : Type}

/-- The empty dictionary. -/
def empty : Dict α :=
  ⟨[], .nil⟩

instance : EmptyCollection (Dict α) :=
  ⟨empty⟩

/-- A list of entries with one more; an entry with the same key is replaced. -/
def insertInto (key : String) (value : α) : List (String × α) → List (String × α)
  | [] => [(key, value)]
  | e :: rest =>
    if key < e.1 then (key, value) :: e :: rest
    else if key = e.1 then (key, value) :: rest
    else e :: insertInto key value rest

theorem mem_insertInto {key : String} {value : α} {a : String × α} {l : List (String × α)}
    (h : a ∈ insertInto key value l) : a = (key, value) ∨ a ∈ l := by
  induction l with
  | nil => simpa [insertInto] using h
  | cons e rest ih =>
    rw [insertInto] at h
    split at h
    · simpa using h
    · split at h
      · rcases List.mem_cons.1 h with h | h
        · exact .inl h
        · exact .inr (List.mem_cons_of_mem _ h)
      · rcases List.mem_cons.1 h with h | h
        · exact .inr (h ▸ List.mem_cons_self)
        · exact (ih h).imp id (List.mem_cons_of_mem _)

theorem lt_of_not_lt_of_ne {a b : String} (h : ¬ a < b) (hne : a ≠ b) : b < a := by
  apply Classical.byContradiction
  intro hba
  exact hne (String.le_antisymm (String.not_lt.1 hba) (String.not_lt.1 h))

theorem sorted_insertInto {key : String} {value : α} {l : List (String × α)}
    (h : l.Pairwise fun a b => a.1 < b.1) :
    (insertInto key value l).Pairwise fun a b => a.1 < b.1 := by
  induction l with
  | nil => simp [insertInto]
  | cons e rest ih =>
    obtain ⟨he, hrest⟩ := List.pairwise_cons.1 h
    rw [insertInto]
    split
    · rename_i hlt
      refine List.pairwise_cons.2 ⟨fun b hb => ?_, h⟩
      rcases List.mem_cons.1 hb with rfl | hb
      · exact hlt
      · exact String.lt_trans hlt (he b hb)
    · rename_i hlt
      split
      · rename_i heq
        exact List.pairwise_cons.2 ⟨fun b hb => heq ▸ he b hb, hrest⟩
      · rename_i hne
        refine List.pairwise_cons.2 ⟨fun b hb => ?_, ih hrest⟩
        rcases mem_insertInto hb with rfl | hb
        · exact lt_of_not_lt_of_ne hlt hne
        · exact he b hb

/-- A dictionary with one more entry; an entry with the same key is replaced. -/
def insert (d : Dict α) (key : String) (value : α) : Dict α :=
  ⟨insertInto key value d.entries, sorted_insertInto d.sorted⟩

/-- The dictionary of the entries of a list; of entries with one key the last stays. -/
def ofList (l : List (String × α)) : Dict α :=
  l.foldl (fun d e => d.insert e.1 e.2) empty

/-- The value at a key. -/
def get? (d : Dict α) (key : String) : Option α :=
  d.entries.lookup key

/-- Two dictionaries with the same entries are equal. -/
theorem ext {d e : Dict α} (h : d.entries = e.entries) : d = e := by
  cases d; cases e; cases h; rfl

@[simp] theorem get?_empty (key : String) : (empty : Dict α).get? key = none :=
  rfl

theorem lookup_cons_eq (e : String × α) (l : List (String × α)) (key : String) :
    (e :: l).lookup key = if key = e.1 then some e.2 else l.lookup key := by
  obtain ⟨k, value⟩ := e
  by_cases h : key = k <;> simp [List.lookup_cons, h, beq_eq_false_iff_ne.2]

theorem lookup_insertInto (key : String) (value : α) (l : List (String × α)) (other : String) :
    (insertInto key value l).lookup other = if other = key then some value else l.lookup other := by
  induction l with
  | nil => simp [insertInto, lookup_cons_eq]
  | cons e rest ih =>
    rw [insertInto]
    split
    · simp [lookup_cons_eq]
    · split
      · rename_i _ heq
        by_cases h : other = e.1 <;> simp [lookup_cons_eq, heq, h]
      · rename_i _ hne
        by_cases h : other = e.1
        · simp [lookup_cons_eq, h, Ne.symm hne]
        · simp [lookup_cons_eq, h, ih]

/-- After an entry was written its key has its value, and other keys have theirs. -/
theorem get?_insert (d : Dict α) (key : String) (value : α) (other : String) :
    (d.insert key value).get? other = if other = key then some value else d.get? other :=
  lookup_insertInto key value d.entries other

/-- Whether a key has a value. -/
def contains (d : Dict α) (key : String) : Bool :=
  (d.get? key).isSome

/-- The keys, in increasing order. -/
def keys (d : Dict α) : List String :=
  d.entries.map (·.1)

/-- The number of entries. -/
def size (d : Dict α) : Nat :=
  d.entries.length

/-- A dictionary with the value at `key` changed by `f`, if there is one. -/
def modify? (d : Dict α) (key : String) (f : α → α) : Option (Dict α) :=
  (d.get? key).map fun value => d.insert key (f value)

end Dict

/-- A set of names. -/
abbrev NameSet := Dict Unit

namespace NameSet

/-- The set of the names in a list. -/
def ofList (names : List String) : NameSet :=
  Dict.ofList (names.map fun name => (name, ()))

/-- The names in a set, in increasing order. -/
def toList (s : NameSet) : List String :=
  s.keys

end NameSet

end CallCensus
