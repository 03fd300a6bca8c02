import CallCensus.Pipeline.Run
import CallCensus.Proofs.Pipeline.Turns
import Mathlib.Logic.Relation

/-!
Executions of a pipeline, in any order of turns, and the failures that happen in them.

A failure is recorded here at the moment when it happens: when a worker that has sent all
that came of an item fails or panics, when the main thread refuses a count, and when the
broadcaster panics. An echo, a thread that ends because its consumer is gone, is none.

* `FreeStep`: one turn of a pipeline whose stages may do anything. The plan may be another
  one at every turn, so that any worker may fail or panic at any item, and any count may be
  refused;
* `PlannedStep`: one turn of a pipeline whose stages keep to one plan;
* `Execution`: a sequence of steps, with the failures that happen in it;
* `reachable_iff_exists_execution`: the executions of a plan reach the states that its
  turns reach.
-/

namespace CallCensus.Pipeline

variable {σ α β ε : Type}

/-- The failure that happens at the next turn of a worker, if any. -/
def Worker.failing? (name : String) : Worker σ β ε → Option (Failure ε)
  | sending [] (.failed e) => some (.cause e)
  | sending [] .panicked => some (.panicked name)
  | _ => none

/-- The failure that happens at the next turn of one of the workers of a pool, if any. -/
def Pool.failing? (name : String) (i : ℕ) (p : Pool σ α β ε) : Option (Failure ε) :=
  p.workers[i]?.bind (Worker.failing? name)

/-- The failure that happens at the next turn of the main thread, if any. -/
def State.refusal? (plan : Plan) (s : State) : Option (Failure Cause) :=
  match s.main, s.counts with
  | .aggregating total, c :: _ =>
    match plan.add total c with
    | .error e => some (.cause e)
    | .ok _ => none
  | _, _ => none

/-- The failure that happens at the next turn of a thread, if any. -/
def State.failing? (plan : Plan) (s : State) : Thread → Option (Failure Cause)
  | .extract i => s.extract.failing? plan.extract.name i
  | .comments i => s.comments.failing? plan.comments.name i
  | .imports i => s.imports.failing? plan.imports.name i
  | .literals i => s.literals.failing? plan.literals.name i
  | .broadcaster => none
  | .counter k i =>
    match plan.counters[k]?, s.counters[k]? with
    | some stage, some pool => pool.failing? stage.name i
    | _, _ => none
  | .main => s.refusal? plan

/-- Whether the main thread has returned. -/
def Main.hasReturned : Main → Bool
  | returned _ => true
  | _ => false

/-- A plan for a pipeline with the given capacity of queues and number of operators. -/
def Plan.Fits (plan : Plan) (capacity operators : ℕ) : Prop :=
  plan.capacity = capacity ∧ plan.counters.length = operators

/-- One step of a pipeline whose stages may do anything, with the failure that happens in
it. A thread takes its turn under any plan, or the broadcaster panics. -/
inductive FreeStep (capacity operators : ℕ) (s : State) : Option (Failure Cause) → State → Prop
  | turn (plan : Plan) (hplan : plan.Fits capacity operators) (thread : Thread) {t : State}
      (h : s.turn plan thread = some t) :
      FreeStep capacity operators s (s.failing? plan thread) t
  | panic (h : s.broadcaster.hasEnded = false) :
      FreeStep capacity operators s (some (.panicked Broadcaster.name))
        { s with broadcaster := .ended (.error (.panicked Broadcaster.name)) }

/-- One step of a pipeline whose stages keep to a plan, with the failure that happens in
it. -/
inductive PlannedStep (plan : Plan) (s : State) : Option (Failure Cause) → State → Prop
  | turn (thread : Thread) {t : State} (h : s.turn plan thread = some t) :
      PlannedStep plan s (s.failing? plan thread) t

/-- A sequence of steps from a state, with the failures that happen in it and the state
that it leads to. -/
inductive Execution {S : Type} (step : S → Option (Failure Cause) → S → Prop) (start : S) :
    List (Failure Cause) → S → Prop
  | start : Execution step start [] start
  | step {happened : List (Failure Cause)} {s t : S} {f : Option (Failure Cause)}
      (before : Execution step start happened s) (h : step s f t) :
      Execution step start (happened ++ f.toList) t

/-- Steps that are steps of another kind as well make up executions of the other kind. -/
lemma Execution.mono {S : Type} {step step' : S → Option (Failure Cause) → S → Prop}
    (hstep : ∀ s f t, step s f t → step' s f t) {start s : S}
    {happened : List (Failure Cause)} (h : Execution step start happened s) :
    Execution step' start happened s := by
  induction h with
  | start => exact .start
  | step _ h ih => exact ih.step (hstep _ _ _ h)

lemma PlannedStep.free {plan : Plan} {capacity operators : ℕ}
    (hplan : plan.Fits capacity operators) {s t : State} {f : Option (Failure Cause)}
    (h : PlannedStep plan s f t) : FreeStep capacity operators s f t := by
  cases h with
  | turn thread h => exact .turn plan hplan thread h

/-- The executions of a plan lead to the states that its turns lead to. -/
lemma reachable_iff_exists_execution {plan : Plan} {start s : State} :
    Relation.ReflTransGen (State.Step plan) start s ↔
      ∃ happened, Execution (PlannedStep plan) start happened s := by
  constructor
  · intro h
    induction h with
    | refl => exact ⟨[], .start⟩
    | tail _ hstep ih =>
        obtain ⟨happened, hexec⟩ := ih
        obtain ⟨thread, hturn⟩ := hstep
        exact ⟨_, hexec.step (.turn thread hturn)⟩
  · rintro ⟨happened, hexec⟩
    induction hexec with
    | start => exact .refl
    | step _ h ih =>
        cases h with
        | turn thread hturn => exact ih.tail ⟨thread, hturn⟩

/-- The run of a pipeline that always gives the turn to the thread farthest down is one of
its executions. -/
lemma reachable_run (plan : Plan) (s : State) :
    Relation.ReflTransGen (State.Step plan) s (s.run plan) := by
  fun_induction State.run plan s with
  | case1 s h => exact .refl
  | case2 s s' h ih => exact .head (State.step_of_next? h) ih

/-! ### The broadcaster's panic in the measure -/

namespace State

/-- A panic of the broadcaster lowers the measure, because a thread that has ended has no
turns left. -/
lemma measure_panic_lt {s : State} (h : s.broadcaster.hasEnded = false) :
    Lower.rel
      ({ s with broadcaster := .ended (.error (.panicked Broadcaster.name)) } : State).measure
      s.measure := by
  have hrank : 0 < s.broadcaster.rank s.counters.length := by
    cases hb : s.broadcaster with
    | waiting n => simp [Broadcaster.rank]
    | delivering item next n => simp [Broadcaster.rank]
    | ended result => simp [hb, Broadcaster.hasEnded] at h
  exact .right _ (.right _ (.right _ (.right _ (.left _ _ (.right _ hrank)))))

end State

lemma FreeStep.measure_lt {capacity operators : ℕ} {s t : State} {f : Option (Failure Cause)}
    (h : FreeStep capacity operators s f t) : State.Lower.rel t.measure s.measure := by
  cases h with
  | turn plan hplan thread h => exact State.turn_decreases h
  | panic h => exact State.measure_panic_lt h

/-! ### The number of operators -/

lemma State.length_counters_of_move {plan : Plan} {s t : State} {thread : Thread}
    (hmove : Move plan s thread t) : t.counters.length = s.counters.length := by
  cases hmove with
  | broadcaster _ => exact length_deliver _ _
  | counter _ _ _ _ _ => exact List.length_set
  | _ => rfl

lemma FreeStep.length_counters {capacity operators : ℕ} {s t : State}
    {f : Option (Failure Cause)} (h : FreeStep capacity operators s f t) :
    t.counters.length = s.counters.length := by
  cases h with
  | turn plan hplan thread h => exact State.length_counters_of_move (State.move_of_turn h)
  | panic h => rfl

lemma Execution.length_counters {capacity operators workers counterWorkers : ℕ}
    {tallies : List ℕ} {archives : List Archive.Reference} {total : Aggregate}
    {happened : List (Failure Cause)} {s : State}
    (h : Execution (FreeStep capacity operators)
      (.start workers counterWorkers operators tallies archives total) happened s) :
    s.counters.length = operators := by
  induction h with
  | start => simp [State.start]
  | step _ h ih => rw [h.length_counters, ih]

/-! ### A plan that fails -/

/-- A plan under which whoever removes the comments of a file panics. -/
def Plan.panicking : Plan where
  extract := ⟨"extract", fun _ r => ([⟨r.name, "A.java", []⟩, ⟨r.name, "B.java", []⟩], .done ())⟩
  comments := ⟨"strip-comments", fun _ _ => ([], .panicked)⟩
  imports := ⟨"check-import", fun tallies _ => ([], .done tallies)⟩
  literals := ⟨"strip-strings", fun _ _ => ([], .done ())⟩
  counters := [⟨"count", fun _ _ => ([], .done ())⟩]
  add := fun total _ => .ok total
  capacity := 1

end CallCensus.Pipeline
