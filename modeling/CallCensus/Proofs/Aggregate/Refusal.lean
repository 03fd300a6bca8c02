import CallCensus.Proofs.Aggregate.Audit
import CallCensus.Proofs.Census.Totals

/-!
Adding up counts some of which are refused.

Adding changes three things one after the other, and a count that has no cell must change none
of them. The first of the three, the table, is the one that refuses, so nothing is half done.
What an aggregate says is therefore about the counts that were not refused, at every point of
a sequence in which refused counts come between others.

* `Aggregate.Accounts`: what an aggregate says of the counts that were added;
* `Aggregate.Accounts.exists_accept`, `Aggregate.Accounts.refuse`: one count;
* `Aggregate.exists_feed`, `Aggregate.feed_accounts`: any sequence of counts.
-/

namespace CallCensus

namespace Aggregate

/-! ### One count -/

/-- What an aggregate says of the counts that were added to a dense table: it has the rows and
columns of that table, in every cell the sum of the cell's counts, the number of counts, and in
an audit the files of the sample, without zeros. -/
structure Accounts (archives operators : List String) (sample : Option NameSet)
    (counts : List CallCount) (a : Aggregate) : Prop where
  rows : a.table.archives = (NameSet.ofList archives).toList
  columns : ∀ archive row, a.table.row? archive = some row →
    row.keys = (NameSet.ofList operators).toList
  cells : ∀ archive ∈ archives, ∀ o ∈ operators, CallCount.sumFor archive o counts < 2 ^ 64 →
    (a.table.get? archive o).map UInt64.toNat = some (CallCount.sumFor archive o counts)
  messages : a.messages = counts.length
  sampled : a.audit.map (fun r => r.files.keys) = sample.map NameSet.toList
  nonzero : ∀ r ∈ a.audit, ∀ file o n, r.kept? file o = some n → n ≠ 0

namespace Accounts

variable {archives operators : List String} {sample : Option NameSet} {counts : List CallCount}
  {a : Aggregate} {c : CallCount}

/-- At the start no count was added. -/
lemma start : Accounts archives operators sample []
    (start (.dense archives operators) (sample.map AuditReport.start)) where
  rows := Table.archives_dense
  columns := fun archive row hrow => by
    rw [Aggregate.start, Table.row?_dense] at hrow
    split_ifs at hrow
    cases hrow
    exact Table.keys_zeroRow
  cells := fun archive harchive o ho _ => by
    rw [Aggregate.start, (Table.holds_dense archives operators).get?_eq harchive ho]
    rfl
  messages := rfl
  sampled := by
    rw [Aggregate.start, Option.map_map]
    exact congrArg (Option.map · sample) (funext AuditReport.keys_start)
  nonzero := by
    intro r hr file o n hn
    obtain ⟨s, -, rfl⟩ := Option.map_eq_some_iff.1 hr
    rw [AuditReport.kept?_start] at hn
    cases hn

/-- A count has a cell if its archive is one of the rows and its operator one of the
columns. -/
lemma isSome_get?_iff (h : Accounts archives operators sample counts a) :
    (a.table.get? c.archive c.operator).isSome ↔ c.archive ∈ archives ∧ c.operator ∈ operators := by
  rw [← @NameSet.mem_toList_ofList archives, ← h.rows, Table.archives, Dict.mem_keys_iff,
    Table.get?]
  cases hrow : a.table.rows.get? c.archive with
  | none => simp
  | some row =>
      rw [Option.bind_some, ← Dict.mem_keys_iff, h.columns c.archive row hrow,
        NameSet.mem_toList_ofList]
      simp

/-- A count with a cell is added. -/
lemma exists_accept (h : Accounts archives operators sample counts a)
    (hc : c.archive ∈ archives ∧ c.operator ∈ operators) :
    ∃ b, (addInPlace c).run.run a = (.ok (), b) ∧
      Accounts archives operators sample (counts ++ [c]) b := by
  obtain ⟨table, hadd, hadds⟩ := Table.exists_add? (h.isSome_get?_iff.2 hc)
  refine ⟨⟨table, a.messages + 1, a.audit.map fun r => r.record c⟩, by
    rw [run_addInPlace, hadd], ?_⟩
  constructor
  case rows => exact hadds.archives_eq.trans h.rows
  case columns =>
    intro archive row' hrow'
    obtain ⟨row, hrow, hkeys⟩ := hadds.exists_row? hrow'
    exact hkeys.trans (h.columns archive row hrow)
  case cells =>
    intro archive harchive o ho hlt
    rw [CallCount.sumFor_append] at hlt ⊢
    obtain ⟨n, hn, hsum⟩ := Option.map_eq_some_iff.1 (h.cells archive harchive o ho (by omega))
    rw [hadds.cells, hn, Option.map_some, Option.map_some, UInt64.toNat_add, hsum,
      UInt64.toNat_ofNat', Nat.add_mod_mod, Nat.mod_eq_of_lt hlt]
  case messages => rw [h.messages, List.length_append, List.length_singleton]
  case sampled =>
    rw [Option.map_map, ← h.sampled]
    exact congrArg (Option.map · a.audit) (funext fun r => AuditReport.keys_record)
  case nonzero =>
    intro r' hr' file o n hn
    obtain ⟨r, hr, rfl⟩ := Option.map_eq_some_iff.1 hr'
    by_cases hkeeps : r.Keeps c
    · rw [AuditReport.kept?_record hkeeps] at hn
      split_ifs at hn with hplace
      · exact Option.some_inj.1 hn ▸ hkeeps.1
      · exact h.nonzero r hr file o n hn
    · rw [AuditReport.record_of_not_keeps hkeeps] at hn
      exact h.nonzero r hr file o n hn

/-- A count without a cell is refused, and the state stays as it was. -/
lemma refuse (h : Accounts archives operators sample counts a)
    (hc : ¬ (c.archive ∈ archives ∧ c.operator ∈ operators)) :
    (addInPlace c).run.run a = (.error (.missingCell c.archive c.operator), a) := by
  have hnone : a.table.get? c.archive c.operator = none :=
    Option.not_isSome_iff_eq_none.1 (mt h.isSome_get?_iff.1 hc)
  rw [run_addInPlace, Table.add?_eq_error c.total hnone]

end Accounts

/-! ### Many counts -/

lemma feed_concat (counts : List CallCount) (c : CallCount) (a : Aggregate) :
    (feed (counts ++ [c])).run a =
      let (answers, b) := (feed counts).run a
      let (answer, b) := (addInPlace c).run.run b
      (answers ++ [answer], b) := by
  simp [feed, List.mapM_append]
  rfl

/-- The counts that were added, by what became of each. -/
def accepted (counts : List CallCount) (answers : List (Except Cause Unit)) : List CallCount :=
  ((counts.zip answers).filter fun p => p.2.isOk).map Prod.fst

section Concat

variable {counts : List CallCount} {answers : List (Except Cause Unit)}

lemma accepted_concat_ok (hlength : answers.length = counts.length) (c : CallCount) :
    accepted (counts ++ [c]) (answers ++ [.ok ()]) = accepted counts answers ++ [c] := by
  rw [accepted, List.zip_append hlength.symm, List.filter_append, List.map_append]
  rfl

lemma accepted_concat_error (hlength : answers.length = counts.length) (c : CallCount)
    (e : Cause) : accepted (counts ++ [c]) (answers ++ [.error e]) = accepted counts answers := by
  rw [accepted, List.zip_append hlength.symm, List.filter_append, List.map_append]
  exact List.append_nil _

end Concat

/-- After any sequence of counts the aggregate accounts for those that were added. -/
lemma exists_feed (archives operators : List String) (sample : Option NameSet)
    (counts : List CallCount) :
    ∃ answers a, (feed counts).run
        (start (.dense archives operators) (sample.map AuditReport.start)) = (answers, a) ∧
      answers.length = counts.length ∧
      Accounts archives operators sample (accepted counts answers) a := by
  induction counts using List.reverseRecOn with
  | nil => exact ⟨[], _, rfl, rfl, .start⟩
  | append_singleton counts c ih =>
      obtain ⟨answers, a, hfeed, hlength, h⟩ := ih
      by_cases hc : c.archive ∈ archives ∧ c.operator ∈ operators
      · obtain ⟨b, hadd, hb⟩ := h.exists_accept hc
        refine ⟨answers ++ [.ok ()], b, ?_, by simp [hlength], ?_⟩
        · rw [feed_concat, hfeed]
          simp only [hadd]
        · rwa [accepted_concat_ok hlength]
      · refine ⟨answers ++ [.error (.missingCell c.archive c.operator)], a, ?_,
          by simp [hlength], ?_⟩
        · rw [feed_concat, hfeed]
          simp only [h.refuse hc]
        · rwa [accepted_concat_error hlength]

/-- **Aggregation with refusals.** Counts are added one by one to a dense table, going on after
those that are refused. At every point the aggregate accounts for the counts that were added;
the next count is added if and only if its archive is one of the rows and its operator one of
the columns, and if it is refused the error names its cell and nothing has changed. -/
theorem feed_accounts (archives operators : List String) (sample : Option NameSet)
    (counts : List CallCount) :
    ∃ answers a, (feed counts).run
        (start (.dense archives operators) (sample.map AuditReport.start)) = (answers, a) ∧
      answers.length = counts.length ∧
      Accounts archives operators sample (accepted counts answers) a ∧
      ∀ c answer b, (addInPlace c).run.run a = (answer, b) →
        (answer = .ok () ↔ c.archive ∈ archives ∧ c.operator ∈ operators) ∧
        ∀ e, answer = .error e → e = .missingCell c.archive c.operator ∧ b = a := by
  obtain ⟨answers, a, hfeed, hlength, h⟩ := exists_feed archives operators sample counts
  refine ⟨answers, a, hfeed, hlength, h, fun c answer b hadd => ?_⟩
  by_cases hc : c.archive ∈ archives ∧ c.operator ∈ operators
  · obtain ⟨b', hadd', -⟩ := h.exists_accept hc
    rw [hadd', Prod.mk.injEq] at hadd
    obtain ⟨rfl, rfl⟩ := hadd
    exact ⟨iff_of_true rfl hc, fun e he => nomatch he⟩
  · rw [h.refuse hc, Prod.mk.injEq] at hadd
    obtain ⟨rfl, rfl⟩ := hadd
    exact ⟨iff_of_false (fun he => nomatch he) hc, fun e he => ⟨(Except.error.inj he).symm, rfl⟩⟩

end Aggregate

end CallCensus
