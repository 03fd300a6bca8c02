import CallCensus.Audit
import CallCensus.Table

/-!
Adding up the counts of a census.

* `Aggregate.addInPlace`, `Aggregate.add?`: one count goes into the table, is itself counted,
  and goes into the audit. A count without a cell in the table is refused and changes nothing;
* `Aggregate.run_addInPlace`, `Aggregate.add?_eq`: what adding a count comes to;
* `Aggregate.consume?`: all counts of a list, up to the first that is refused;
* `Aggregate.feed`: all counts of a list, whether or not some are refused.
-/

namespace CallCensus

/-- The counts added up so far. -/
structure Aggregate where
  table : Table
  /-- How many counts were added. -/
  messages : Nat
  audit : Option AuditReport

namespace Aggregate

/-- Nothing added yet. -/
def start (table : Table) (audit : Option AuditReport) : Aggregate :=
  ⟨table, 0, audit⟩

/-- Add one count in place. A refusal ends the steps and undoes none of those before it. -/
def addInPlace (c : CallCount) : ExceptT Cause (StateM Aggregate) Unit := do
  match (← get).table.add? c.archive c.operator c.total with
  | .error e => throw e
  | .ok table => modify fun a => { a with table := table }
  modify fun a => { a with messages := a.messages + 1 }
  modify fun a => { a with audit := a.audit.map fun r => r.record c }

/-- Adding a count in place changes everything, or nothing. -/
theorem run_addInPlace (c : CallCount) (a : Aggregate) : (addInPlace c).run.run a =
    match a.table.add? c.archive c.operator c.total with
    | .error e => (.error e, a)
    | .ok table => (.ok (), ⟨table, a.messages + 1, a.audit.map fun r => r.record c⟩) := by
  have hget : ∀ f : Aggregate → ExceptT Cause (StateM Aggregate) Unit,
      (get >>= f).run.run a = (f a).run.run a := fun _ => rfl
  rw [addInPlace, hget]
  cases a.table.add? c.archive c.operator c.total <;> rfl

/-- Add one count. -/
def add? (a : Aggregate) (c : CallCount) : Except Cause Aggregate :=
  match (addInPlace c).run.run a with
  | (.error e, _) => .error e
  | (.ok (), b) => .ok b

theorem add?_eq (a : Aggregate) (c : CallCount) : a.add? c =
    match a.table.add? c.archive c.operator c.total with
    | .error e => .error e
    | .ok table => .ok ⟨table, a.messages + 1, a.audit.map fun r => r.record c⟩ := by
  rw [add?, run_addInPlace]
  cases a.table.add? c.archive c.operator c.total <;> rfl

/-- Add counts up to the first that is refused. -/
def consume? (a : Aggregate) (cs : List CallCount) : Except Cause Aggregate :=
  cs.foldlM add? a

/-- Add counts one by one, going on after those that are refused, and list what became of
each. -/
def feed (cs : List CallCount) : StateM Aggregate (List (Except Cause Unit)) :=
  cs.mapM fun c => (addInPlace c).run

end Aggregate

end CallCensus
