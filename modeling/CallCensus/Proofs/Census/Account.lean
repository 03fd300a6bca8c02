import CallCensus.Proofs.Census.Refinement

/-!
What adding up keeps.

The main thread of a pipeline changes its total in one way only, by adding a count to it. So
what adding a count keeps is as it was at the start when the main thread returns: the rows of
the table, and whether there is an audit.

* `Main.total?`: what a main thread has added up so far;
* `State.forall_total?_of_reachable`: what holds of every total, by one count at a time;
* `Aggregate.Alike`: aggregates with the same rows, both with an audit or both without;
* `Census.exists_run_returned`, `Census.alike_of_returned`: a census returns, and what.
-/

namespace CallCensus

namespace Pipeline

/-- What a main thread has added up so far, unless it has failed. -/
def Main.total? : Main → Option Aggregate
  | aggregating total => some total
  | joining (.ok total) => some total
  | returned (.ok outcome) => some outcome.1
  | _ => none

namespace State

variable {plan : Plan} {s t : State} {thread : Thread} {P : Aggregate → Prop}

lemma total_of_result_eq_ok {total : Except Cause Aggregate} {outcome : Outcome}
    (h : s.result total = .ok outcome) : total = .ok outcome.1 := by
  unfold result at h
  split at h <;> cases h
  rfl

/-- What adding a count keeps is kept by a turn. -/
lemma forall_total?_of_turn
    (hadd : ∀ now c next, P now → plan.add now c = .ok next → P next)
    (hs : ∀ now ∈ s.main.total?, P now) (h : s.turn plan thread = some t) :
    ∀ now ∈ t.main.total?, P now := by
  cases move_of_turn h with
  | @add total total' c rest hmain hcounts hnow =>
      rintro now ⟨⟩
      exact hadd total c _ (hs total (by rw [hmain]; rfl)) hnow
  | refuse hmain hcounts hnow => rintro now ⟨⟩
  | @drain total hmain hcounts hended =>
      rintro now ⟨⟩
      exact hs _ (by rw [hmain]; rfl)
  | @finish total hmain hended =>
      intro now hnow
      cases hresult : s.result total with
      | error f =>
          rw [hresult] at hnow
          cases hnow
      | ok outcome =>
          rw [hresult] at hnow
          cases hnow
          exact hs _ (by rw [hmain, total_of_result_eq_ok hresult]; rfl)
  | _ => exact hs

/-- What adding a count keeps is true of every total when it is true of the first. -/
lemma forall_total?_of_reachable
    (hadd : ∀ now c next, P now → plan.add now c = .ok next → P next)
    (hs : ∀ now ∈ s.main.total?, P now) (h : Relation.ReflTransGen (Step plan) s t) :
    ∀ now ∈ t.main.total?, P now := by
  induction h with
  | refl => exact hs
  | tail _ hstep ih =>
      obtain ⟨thread, hturn⟩ := hstep
      exact forall_total?_of_turn hadd ih hturn

end State

end Pipeline

/-! ### Censuses -/

/-- Two aggregates with the same rows, both with an audit or both without. -/
structure Aggregate.Alike (a b : Aggregate) : Prop where
  archives : b.table.archives = a.table.archives
  audit : b.audit.isSome = a.audit.isSome

/-- Adding a count keeps the rows and the audit. -/
lemma Aggregate.Alike.add? {a b next : Aggregate} {c : CallCount} (h : a.Alike b)
    (hadd : b.add? c = .ok next) : a.Alike next := by
  rw [add?_eq] at hadd
  cases hcell : b.table.get? c.archive c.operator with
  | none =>
      rw [Table.add?_eq_error c.total hcell] at hadd
      cases hadd
  | some n =>
      obtain ⟨table, htable, hadds⟩ := Table.exists_add? (Option.isSome_iff_exists.2 ⟨n, hcell⟩)
      rw [htable] at hadd
      cases hadd
      exact ⟨hadds.archives_eq.trans h.archives, by rw [Option.isSome_map, h.audit]⟩

namespace Census

open Pipeline

variable {tree : FileTree} {settings : Settings} {operators : Operators}
  {archives : List Archive.Reference} {s : State} {outcome : Outcome}

lemma exists_run_returned (tree : FileTree) (settings : Settings) (operators : Operators)
    (archives : List Archive.Reference) :
    ∃ result, ((start settings operators archives).run
      (plan tree settings operators.names)).main = .returned result := by
  have hoperators : (plan tree settings operators.names).counters.length =
      operators.names.length := by simp [plan]
  refine exists_returned hoperators (reachable_run _ _) ?_
  rintro t ⟨thread, hturn⟩
  rw [State.turn_run] at hturn
  cases hturn

/-- What a census has added up when it returns is laid out as it was at the start. -/
lemma alike_of_returned
    (hreach : Relation.ReflTransGen (State.Step (plan tree settings operators.names))
      (start settings operators archives) s) (hmain : s.main = .returned (.ok outcome)) :
    (Aggregate.start (.dense (rowNames settings archives) operators.names)
      (settings.sample.map AuditReport.start)).Alike outcome.1 := by
  refine State.forall_total?_of_reachable (fun now c next h hadd => h.add? hadd) ?_ hreach _
    (by rw [hmain]; rfl)
  rintro now ⟨⟩
  exact ⟨rfl, rfl⟩

lemma mem_archives_of_returned
    (hreach : Relation.ReflTransGen (State.Step (plan tree settings operators.names))
      (start settings operators archives) s) (hmain : s.main = .returned (.ok outcome))
    {a : String} :
    a ∈ (Result.ofOutcome outcome).table.archives ↔ a ∈ rowNames settings archives := by
  have halike := (alike_of_returned hreach hmain).archives
  rw [Result.ofOutcome, halike]
  exact (Table.holds_dense _ _).mem_archives_iff

lemma isSome_audit_of_returned
    (hreach : Relation.ReflTransGen (State.Step (plan tree settings operators.names))
      (start settings operators archives) s) (hmain : s.main = .returned (.ok outcome)) :
    (Result.ofOutcome outcome).audit.isSome = settings.sample.isSome := by
  have halike := (alike_of_returned hreach hmain).audit
  rw [Result.ofOutcome, Option.isSome_map, halike, Aggregate.start, Option.isSome_map]

end Census

end CallCensus
