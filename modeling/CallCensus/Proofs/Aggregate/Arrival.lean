import CallCensus.Proofs.Aggregate.Audit
import CallCensus.Proofs.Census.Totals

/-!
Adding up counts in the order they arrive.

The counts of a census come in the order in which its workers produce them. The table and the
number of counts do not depend on it: totals are sums. An audit does not add, it keeps the
last count of a place, and a place is a path and an operator without an archive. So files of
two archives with one path compete for it, and who comes last wins.

* `Aggregate.consume?_of_perm`: the table and the number of counts are the same in every order;
* `Aggregate.undisputed_of_consume?_eq`: a report that is the same in every order leaves nothing
  to compete for;
* `Aggregate.consume?_order`: both together, and that the report is the same in every order
  if nothing competes;
* `Aggregate.consume?_ne_namesakes`: two files with one path.
-/

namespace CallCensus

/-- Without competing counts a report keeps the same in every order. -/
lemma AuditReport.foldl_record_perm {r : AuditReport} {counts order : List CallCount}
    (hperm : order.Perm counts) (hagree : r.Undisputed counts) :
    order.foldl record r = counts.foldl record r := by
  have hagree' : r.Undisputed order := fun c hc c' hc' =>
    hagree c (hperm.subset hc) c' (hperm.subset hc')
  refine eq_of_kept?_eq (by rw [imports_foldl, imports_foldl])
    (fun file => by rw [isSome_foldl, isSome_foldl]) fun file o => ?_
  by_cases hplace : ∃ c ∈ counts, r.Keeps c ∧ c.file = file ∧ c.operator = o
  · obtain ⟨c, hc, hkeeps, rfl, rfl⟩ := hplace
    rw [kept?_foldl_of_mem hagree hc hkeeps, kept?_foldl_of_mem hagree' (hperm.symm.subset hc) hkeeps]
  · have hnone : ∀ c ∈ counts, r.Keeps c → ¬ (c.file = file ∧ c.operator = o) :=
      fun c hc hkeeps heq => hplace ⟨c, hc, hkeeps, heq⟩
    rw [kept?_foldl_of_forall hnone,
      kept?_foldl_of_forall fun c hc => hnone c (hperm.subset hc)]

lemma exists_perm_concat {α : Type} {x : α} {l : List α} (h : x ∈ l) :
    ∃ rest, (rest ++ [x]).Perm l := by
  obtain ⟨before, after, rfl⟩ := List.append_of_mem h
  exact ⟨before ++ after, (List.perm_append_singleton x _).trans List.perm_middle.symm⟩

namespace Aggregate

variable {table : Table} {audit : Option AuditReport} {counts : List CallCount}

/-- Counts that have their cells give the same table in every order, and each order records
them in its own. -/
lemma consume?_of_perm (audit : Option AuditReport)
    (hcells : ∀ c ∈ counts, (table.get? c.archive c.operator).isSome) :
    ∃ sums, table.Adds (fun a o => .ofNat (CallCount.sumFor a o counts)) sums ∧
      ∀ order, order.Perm counts → (start table audit).consume? order =
        .ok ⟨sums, counts.length, audit.map fun r => order.foldl AuditReport.record r⟩ := by
  have hstart : ∀ c ∈ counts, ((start table audit).table.get? c.archive c.operator).isSome := hcells
  obtain ⟨sums, -, hsums⟩ := exists_consume? hstart
  refine ⟨sums, hsums, fun order hperm => ?_⟩
  obtain ⟨sums', hconsume, hsums'⟩ := exists_consume? fun c hc => hstart c (hperm.subset hc)
  simp only [CallCount.sumFor_perm hperm] at hsums'
  rw [hconsume, hsums.unique hsums', hperm.length_eq, start, Nat.zero_add]

/-- If the report is the same in every order, counts that belong in one place are equal. -/
lemma undisputed_of_consume?_eq
    (hcells : ∀ c ∈ counts, (table.get? c.archive c.operator).isSome)
    (hsame : ∀ order, order.Perm counts →
      (start table audit).consume? order = (start table audit).consume? counts)
    {r : AuditReport} (hr : r ∈ audit) : r.Undisputed counts := by
  obtain ⟨sums, -, hconsume⟩ := consume?_of_perm audit hcells
  have hfinal : ∀ order : List CallCount, order.Perm counts →
      order.foldl AuditReport.record r = counts.foldl AuditReport.record r := by
    intro order hperm
    have heq := hsame order hperm
    rw [hconsume order hperm, hconsume counts (.refl _), Option.mem_def.1 hr] at heq
    simpa using heq
  intro c hc c' hc' hkeeps hkeeps' hfile hoperator
  obtain ⟨rest, hperm⟩ := exists_perm_concat hc
  obtain ⟨rest', hperm'⟩ := exists_perm_concat hc'
  -- whichever of the two comes last is the one that is kept
  have hlast := AuditReport.kept?_foldl_concat rest hkeeps
  have hlast' := AuditReport.kept?_foldl_concat rest' hkeeps'
  rw [hfinal _ hperm, hfile, hoperator] at hlast
  rw [hfinal _ hperm', hlast] at hlast'
  exact Option.some_inj.1 hlast'

/-- **Aggregation and arrival order.** Counts whose cells all exist are added up to one table,
which has their sums in its cells, and to one number of counts, in whatever order they arrive.
What is found is the same altogether if and only if there is no audit, or no two counts that
differ belong to one sampled path and one operator. -/
theorem consume?_order (table : Table) (audit : Option AuditReport) (counts : List CallCount)
    (hcells : ∀ c ∈ counts, (table.get? c.archive c.operator).isSome) :
    (∃ sums, table.Adds (fun a o => .ofNat (CallCount.sumFor a o counts)) sums ∧
      ∀ order, order.Perm counts → ∃ report,
        (start table audit).consume? order = .ok ⟨sums, counts.length, report⟩) ∧
    ((∀ order, order.Perm counts →
        (start table audit).consume? order = (start table audit).consume? counts) ↔
      ∀ r ∈ audit, r.Undisputed counts) := by
  obtain ⟨sums, hsums, hconsume⟩ := consume?_of_perm audit hcells
  refine ⟨⟨sums, hsums, fun order hperm => ⟨_, hconsume order hperm⟩⟩,
    fun hsame r hr => undisputed_of_consume?_eq hcells hsame hr, fun hagree order hperm => ?_⟩
  have hreport : (audit.map fun r => order.foldl AuditReport.record r) =
      audit.map fun r => counts.foldl AuditReport.record r :=
    Option.map_congr fun r hr => AuditReport.foldl_record_perm hperm (hagree r hr)
  rw [hconsume order hperm, hconsume counts (.refl _), hreport]

/-- Counts of two files with different paths, in two archives. -/
def strangers : List CallCount :=
  [⟨"a", "F.java", "map", 1⟩, ⟨"b", "G.java", "map", 2⟩]

/-- Nothing added yet, for two archives and one operator, with an audit of both paths. -/
def sampled : Aggregate :=
  start (.dense ["a", "b"] ["map"]) (some (.start (NameSet.ofList ["F.java", "G.java"])))

/-- Files with different paths do not compete. -/
theorem consume?_order_strangers :
    (∀ c ∈ strangers, (sampled.table.get? c.archive c.operator).isSome) ∧
      ∀ order, order.Perm strangers → sampled.consume? order = sampled.consume? strangers := by
  refine ⟨by decide +kernel, (consume?_order _ _ strangers (by decide +kernel)).2.2 ?_⟩
  rintro r ⟨⟩
  decide +kernel

/-- Counts of two files with one path, in two archives. -/
def namesakes : List CallCount :=
  [⟨"a", "F.java", "map", 1⟩, ⟨"b", "F.java", "map", 2⟩]

/-- Of two files with one path the report keeps the count of the last to arrive. -/
theorem consume?_ne_namesakes :
    namesakes.reverse.Perm namesakes ∧
      (∀ c ∈ namesakes, (sampled.table.get? c.archive c.operator).isSome) ∧
      sampled.consume? namesakes.reverse ≠ sampled.consume? namesakes := by
  refine ⟨List.reverse_perm _, by decide +kernel, fun heq => ?_⟩
  let kept (result : Except Cause Aggregate) : Option UInt64 :=
    (result.toOption.bind Aggregate.audit).bind fun r => r.kept? "F.java" "map"
  exact absurd (congrArg kept heq) (by decide +kernel)

end Aggregate

end CallCensus
