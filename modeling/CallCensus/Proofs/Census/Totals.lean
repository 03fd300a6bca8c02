import CallCensus.Aggregate
import CallCensus.Proofs.Dict
import Mathlib.Algebra.BigOperators.Group.Finset.Piecewise
import Mathlib.Algebra.GroupWithZero.Nat

/-!
What a table holds after counts were added to it.

A dense table has a row for every archive and in every row a cell for every operator.
Adding a count changes one cell and nothing else, so after many counts every cell holds the
sum of those that are its own, in whatever order they came.

* `CallCount.sumFor`: the sum of the counts that belong to a cell;
* `Table.Adds`: so much was added to every cell of a table, and `Table.exists_add?`: one count
  is added to its own;
* `Table.Holds`: the rows, the columns and the cells of a table;
* `Aggregate.exists_consume?`, `Aggregate.consume?_eq_ok`: adding many counts, none of which is
  refused;
* `Aggregate.exists_consume?_eq_error`: adding many counts, some of which have no cell.
-/

namespace CallCensus

/-! ### Sums of counts -/

/-- The sum of the counts that belong to a cell. -/
def CallCount.sumFor (archive operator : String) (counts : List CallCount) : ℕ :=
  ((counts.filter fun c => c.archive = archive ∧ c.operator = operator).map
    fun c => c.total.toNat).sum

namespace CallCount

variable {α : Type} {a o : String}

lemma sumFor_append (l l' : List CallCount) :
    sumFor a o (l ++ l') = sumFor a o l + sumFor a o l' := by
  simp [sumFor]

lemma sumFor_perm {l l' : List CallCount} (h : l.Perm l') : sumFor a o l = sumFor a o l' :=
  ((h.filter _).map _).sum_eq

lemma sumFor_flatMap (f : α → List CallCount) (l : List α) :
    sumFor a o (l.flatMap f) = (l.map fun x => sumFor a o (f x)).sum := by
  induction l with
  | nil => rfl
  | cons x l ih =>
      rw [List.flatMap_cons, List.map_cons, List.sum_cons, ← ih]
      simp [sumFor]

/-- Of the counts of a file, one for each operator, one belongs to the cell. -/
lemma sumFor_map_counted (file : SourceFile) (n : String → UInt64) {operators : List String}
    (hnodup : operators.Nodup) (ho : o ∈ operators) :
    sumFor a o (operators.map fun operator => file.counted operator (n operator)) =
      if file.archive = a then (n o).toNat else 0 := by
  have hflat : (operators.map fun operator => file.counted operator (n operator)) =
      operators.flatMap fun operator => [file.counted operator (n operator)] :=
    List.map_eq_flatMap
  have hone : ∀ operator, sumFor a o [file.counted operator (n operator)] =
      if operator = o then (if file.archive = a then (n o).toNat else 0) else 0 := by
    intro operator
    by_cases hoperator : operator = o <;> by_cases harchive : file.archive = a <;>
      simp [sumFor, SourceFile.counted, hoperator, harchive]
  rw [hflat, sumFor_flatMap, List.map_congr_left fun operator _ => hone operator,
    ← List.sum_toFinset _ hnodup, Finset.sum_ite_eq', if_pos (List.mem_toFinset.2 ho)]

end CallCount

/-- Adding up 64-bit words is adding up numbers, as far as the word of the sum goes. -/
lemma ofNat_sum_toNat {α : Type} (n : α → ℕ) (l : List α) :
    UInt64.ofNat (l.map fun x => (UInt64.ofNat (n x)).toNat).sum = .ofNat (l.map n).sum := by
  induction l with
  | nil => rfl
  | cons x l ih =>
      simp only [List.map_cons, List.sum_cons, UInt64.ofNat_add, ih, UInt64.ofNat_toNat]

/-! ### Tables -/

namespace Table

/-- Tables with the same rows and the same cells are equal. -/
lemma eq_of_get?_eq {t t' : Table} (hrows : ∀ a, (t.row? a).isSome = (t'.row? a).isSome)
    (hcells : ∀ a o, t.get? a o = t'.get? a o) : t = t' := by
  have hrow : ∀ a, t.rows.get? a = t'.rows.get? a := by
    intro a
    have hsome := hrows a
    have hcell := hcells a
    simp only [row?, get?] at hsome hcell
    cases h : t.rows.get? a with
    | none =>
        rw [h] at hsome
        exact (Option.isNone_iff_eq_none.1 (by simpa using hsome)).symm
    | some row =>
        obtain ⟨row', hrow'⟩ := Option.isSome_iff_exists.1 (hsome.symm.trans (by rw [h]; rfl))
        simp only [h, hrow', Option.bind_some] at hcell
        rw [hrow', Dict.eq_of_get?_eq hcell]
  exact congrArg Table.mk (Dict.eq_of_get?_eq hrow)

/-- One table has the rows and cells of another, and in every cell so much more. -/
structure Adds (t : Table) (more : String → String → UInt64) (t' : Table) : Prop where
  rows : ∀ a, (t'.row? a).isSome = (t.row? a).isSome
  cells : ∀ a o, t'.get? a o = (t.get? a o).map (· + more a o)

namespace Adds

variable {t t' t'' : Table} {more more' : String → String → UInt64}

lemma refl (t : Table) : t.Adds (fun _ _ => 0) t :=
  ⟨fun _ => rfl, fun a o => by cases t.get? a o <;> simp⟩

lemma trans (h : t.Adds more t') (h' : t'.Adds more' t'') :
    t.Adds (fun a o => more a o + more' a o) t'' where
  rows := fun a => (h'.rows a).trans (h.rows a)
  cells := fun a o => by
    rw [h'.cells, h.cells, Option.map_map]
    exact congrArg (Option.map · _) (funext fun n => UInt64.add_assoc n _ _)

/-- What is added determines the table. -/
lemma unique (h : t.Adds more t') (h' : t.Adds more t'') : t' = t'' :=
  eq_of_get?_eq (fun a => (h.rows a).trans (h'.rows a).symm)
    fun a o => (h.cells a o).trans (h'.cells a o).symm

lemma isSome_get? (h : t.Adds more t') (a o : String) :
    (t'.get? a o).isSome = (t.get? a o).isSome := by
  rw [h.cells, Option.isSome_map]

lemma archives_eq (h : t.Adds more t') : t'.archives = t.archives :=
  Dict.keys_eq_of_isSome_eq h.rows

lemma exists_row? (h : t.Adds more t') {a : String} {row' : Dict UInt64}
    (hrow' : t'.row? a = some row') : ∃ row, t.row? a = some row ∧ row'.keys = row.keys := by
  obtain ⟨row, hrow⟩ := Option.isSome_iff_exists.1
    ((h.rows a).symm.trans (Option.isSome_iff_exists.2 ⟨row', hrow'⟩))
  refine ⟨row, hrow, Dict.keys_eq_of_isSome_eq fun o => ?_⟩
  have hcell := h.isSome_get? a o
  rw [row?] at hrow hrow'
  rwa [get?, get?, hrow, hrow', Option.bind_some, Option.bind_some] at hcell

end Adds

lemma add?_eq_error {t : Table} {a o : String} (n : UInt64) (h : t.get? a o = none) :
    t.add? a o n = .error (.missingCell a o) := by
  rw [get?] at h
  cases hrow : t.rows.get? a with
  | none => rw [add?, hrow]
  | some row =>
      rw [hrow, Option.bind_some] at h
      simp only [add?, hrow, Dict.modify?, h, Option.map_none]

/-- A count that has its cell is added to it, and to nothing else. -/
lemma exists_add? {t : Table} {c : CallCount} (h : (t.get? c.archive c.operator).isSome) :
    ∃ t', t.add? c.archive c.operator c.total = .ok t' ∧
      t.Adds (fun a o => .ofNat (CallCount.sumFor a o [c])) t' := by
  obtain ⟨n, hn⟩ := Option.isSome_iff_exists.1 h
  obtain ⟨row, hrow, hcell⟩ := Option.bind_eq_some_iff.1 hn
  obtain ⟨row', hmodify, hrow'⟩ := Dict.exists_modify? (· + c.total) hcell
  refine ⟨⟨t.rows.insert c.archive row'⟩, ?_, fun a => ?_, fun a o => ?_⟩
  · simp only [add?, hrow, hmodify]
  · rw [row?, Dict.get?_insert, row?]
    split_ifs with ha
    · rw [ha, hrow]
      rfl
    · rfl
  · simp only [get?, Dict.get?_insert]
    by_cases ha : a = c.archive
    · subst ha
      rw [if_pos rfl, hrow, Option.bind_some, Option.bind_some, hrow']
      by_cases ho : o = c.operator
      · simp [ho, hcell, CallCount.sumFor]
      · cases row.get? o <;> simp [ho, Ne.symm ho, CallCount.sumFor]
    · rw [if_neg ha]
      cases (t.rows.get? a).bind fun row => row.get? o <;>
        simp [Ne.symm ha, CallCount.sumFor]

section Dense

variable {archives operators : List String}

lemma row?_dense (a : String) : (dense archives operators).row? a =
    if a ∈ archives then some (zeroRow operators) else none :=
  Dict.get?_ofList_map (fun _ => zeroRow operators) archives a

lemma get?_zeroRow (o : String) :
    (zeroRow operators).get? o = if o ∈ operators then some 0 else none :=
  Dict.get?_ofList_map (fun _ => 0) operators o

lemma archives_dense : (dense archives operators).archives = (NameSet.ofList archives).toList :=
  Dict.keys_eq_of_isSome_eq fun a => by
    have hrow : (dense archives operators).rows.get? a = _ := row?_dense a
    rw [hrow, NameSet.ofList, Dict.get?_ofList_map fun _ => ()]
    split_ifs <;> rfl

lemma keys_zeroRow : (zeroRow operators).keys = (NameSet.ofList operators).toList :=
  Dict.keys_eq_of_isSome_eq fun o => by
    rw [get?_zeroRow, NameSet.ofList, Dict.get?_ofList_map fun _ => ()]
    split_ifs <;> rfl

end Dense

/-- A table with the given rows and columns, whose cells hold the given totals as 64-bit
words. -/
structure Holds (t : Table) (archives operators : List String) (total : String → String → ℕ) :
    Prop where
  rows : ∀ a, (t.row? a).isSome ↔ a ∈ archives
  cells : ∀ a row, t.row? a = some row →
    ∀ o, row.get? o = if o ∈ operators then some (.ofNat (total a o)) else none

/-- A dense table holds zeros. -/
lemma holds_dense (archives operators : List String) :
    (dense archives operators).Holds archives operators fun _ _ => 0 := by
  refine ⟨fun a => ?_, fun a row hrow o => ?_⟩
  · rw [row?_dense]
    split_ifs with ha <;> simp [ha]
  · rw [row?_dense] at hrow
    split_ifs at hrow with ha
    cases hrow
    exact get?_zeroRow o

namespace Holds

variable {t : Table} {archives operators : List String} {total : String → String → ℕ}

lemma get?_eq (h : t.Holds archives operators total) {a o : String} (ha : a ∈ archives)
    (ho : o ∈ operators) : t.get? a o = some (.ofNat (total a o)) := by
  obtain ⟨row, hrow⟩ := Option.isSome_iff_exists.1 ((h.rows a).2 ha)
  rw [row?] at hrow
  rw [get?, hrow, Option.bind_some, h.cells a row hrow o, if_pos ho]

lemma isSome_get?_iff (h : t.Holds archives operators total) {a o : String} :
    (t.get? a o).isSome ↔ a ∈ archives ∧ o ∈ operators := by
  rw [← h.rows a, row?, get?]
  cases hrow : t.rows.get? a with
  | none => simp
  | some row =>
      rw [Option.bind_some, h.cells a row hrow o]
      split_ifs with ho <;> simp [ho]

lemma mem_archives_iff (h : t.Holds archives operators total) {a : String} :
    a ∈ t.archives ↔ a ∈ archives := by
  rw [Table.archives, Dict.mem_keys_iff, ← h.rows a, row?]

lemma mem_keys_iff (h : t.Holds archives operators total) {a : String} {row : Dict UInt64}
    (hrow : t.row? a = some row) {o : String} : o ∈ row.keys ↔ o ∈ operators := by
  rw [Dict.mem_keys_iff, h.cells a row hrow o]
  split_ifs with ho <;> simp [ho]

/-- What is added to the cells of a table is added to their totals. -/
lemma adds {t' : Table} {more : String → String → ℕ} (h : t.Holds archives operators total)
    (hadds : t.Adds (fun a o => .ofNat (more a o)) t') :
    t'.Holds archives operators fun a o => total a o + more a o where
  rows := fun a => by rw [hadds.rows, h.rows]
  cells := fun a row' hrow' o => by
    obtain ⟨row, hrow⟩ := Option.isSome_iff_exists.1
      ((hadds.rows a).symm.trans (Option.isSome_iff_exists.2 ⟨row', hrow'⟩))
    have hcell := hadds.cells a o
    simp only [row?] at hrow hrow'
    rw [get?, get?, hrow, hrow', Option.bind_some, Option.bind_some, h.cells a row hrow o] at hcell
    rw [hcell]
    split_ifs with ho
    · rw [Option.map_some, UInt64.ofNat_add]
    · rfl

end Holds

end Table

/-! ### Adding up -/

namespace Aggregate

/-- Counts that have their cells are all added, each to its cell, and all are counted and
recorded. -/
lemma exists_consume? {counts : List CallCount} {now : Aggregate}
    (hcells : ∀ c ∈ counts, (now.table.get? c.archive c.operator).isSome) :
    ∃ table, now.consume? counts = .ok ⟨table, now.messages + counts.length,
        now.audit.map fun r => counts.foldl AuditReport.record r⟩ ∧
      now.table.Adds (fun a o => .ofNat (CallCount.sumFor a o counts)) table := by
  induction counts generalizing now with
  | nil =>
      refine ⟨now.table, ?_, .refl _⟩
      simp [consume?, pure, Except.pure]
  | cons c counts ih =>
      obtain ⟨table, hadd, hadds⟩ := Table.exists_add? (hcells c List.mem_cons_self)
      let after : Aggregate := ⟨table, now.messages + 1, now.audit.map fun r => r.record c⟩
      have hafter : ∀ c' ∈ counts, (after.table.get? c'.archive c'.operator).isSome :=
        fun c' hc' => by
          rw [hadds.isSome_get?]
          exact hcells c' (List.mem_cons_of_mem _ hc')
      obtain ⟨last, hlast, hrest⟩ := ih hafter
      refine ⟨last, ?_, ?_⟩
      · rw [consume?, List.foldlM_cons, add?_eq, hadd]
        refine hlast.trans ?_
        simp [after, add_assoc, add_comm 1, Function.comp_def]
      · have hsum : ∀ a o, UInt64.ofNat (CallCount.sumFor a o (c :: counts)) =
            .ofNat (CallCount.sumFor a o [c]) + .ofNat (CallCount.sumFor a o counts) := by
          intro a o
          rw [← UInt64.ofNat_add, ← CallCount.sumFor_append, List.singleton_append]
        simpa only [hsum] using hadds.trans hrest

/-- As soon as one of the counts has no cell, one of those without is the error. -/
lemma exists_consume?_eq_error {counts : List CallCount} {now : Aggregate}
    (h : ∃ c ∈ counts, now.table.get? c.archive c.operator = none) :
    ∃ c ∈ counts, now.table.get? c.archive c.operator = none ∧
      now.consume? counts = .error (.missingCell c.archive c.operator) := by
  induction counts generalizing now with
  | nil =>
      obtain ⟨c, hc, -⟩ := h
      exact absurd hc List.not_mem_nil
  | cons c counts ih =>
      rw [consume?, List.foldlM_cons, add?_eq]
      by_cases hcell : (now.table.get? c.archive c.operator).isSome
      · obtain ⟨table, hadd, hadds⟩ := Table.exists_add? hcell
        have hnone : ∀ a o, table.get? a o = none ↔ now.table.get? a o = none := fun a o => by
          rw [hadds.cells, Option.map_eq_none_iff]
        let after : Aggregate := ⟨table, now.messages + 1, now.audit.map fun r => r.record c⟩
        have hafter : ∃ c' ∈ counts, after.table.get? c'.archive c'.operator = none := by
          obtain ⟨c', hc', hmissing⟩ := h
          rcases List.mem_cons.1 hc' with rfl | hc'
          · rw [hmissing] at hcell
            cases hcell
          · exact ⟨c', hc', (hnone _ _).2 hmissing⟩
        obtain ⟨c', hc', hmissing, herror⟩ := ih hafter
        refine ⟨c', List.mem_cons_of_mem _ hc', (hnone _ _).1 hmissing, ?_⟩
        rw [hadd]
        exact herror
      · have hmissing := Option.not_isSome_iff_eq_none.1 hcell
        refine ⟨c, List.mem_cons_self, hmissing, ?_⟩
        rw [Table.add?_eq_error c.total hmissing]
        rfl

variable {archives operators : List String} {total : String → String → ℕ}

/-- Counts of known archives and operators are all added to a table that has them. -/
lemma consume?_eq_ok {counts : List CallCount} {now : Aggregate}
    (h : now.table.Holds archives operators total)
    (hcells : ∀ c ∈ counts, c.archive ∈ archives ∧ c.operator ∈ operators) :
    ∃ next, now.consume? counts = .ok next ∧
      next.messages = now.messages + counts.length ∧
      next.table.Holds archives operators fun a o => total a o + CallCount.sumFor a o counts := by
  have hpresent : ∀ c ∈ counts, (now.table.get? c.archive c.operator).isSome :=
    fun c hc => h.isSome_get?_iff.2 (hcells c hc)
  obtain ⟨table, hconsume, hadds⟩ := exists_consume? hpresent
  exact ⟨_, hconsume, rfl, h.adds hadds⟩

end Aggregate

end CallCensus
