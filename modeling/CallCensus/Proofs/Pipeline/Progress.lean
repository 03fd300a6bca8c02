import CallCensus.Proofs.Pipeline.Handles
import Mathlib.Order.WellFounded

/-!
A pipeline is never stuck, and every execution of it ends.

The argument goes from the end of the pipeline to its start and back. A queue that is read
by somebody who has no turn is not full: its readers have ended, or they wait and it is
empty (`Pool.room_ne_full`). So no sender waits for room, from the main thread up to the
first stage, and a thread without a turn has ended or waits for those before it. Nobody is
before the first stage, so it has ended, and then the second, and so on down to the main
thread, which has returned.

* `Pool.ended_or_waits`, `Pool.room_ne_full`: one stage without a turn;
* `State.hasReturned_of_forall_turn_eq_none`: a pipeline without a turn;
* `Execution.exists_turn`: an execution is not stuck before the main thread has returned;
* `progress_and_termination`: the same for a pipeline whose threads look at the holders of
  the ends of the queues, and that no execution of it goes on for ever.
-/

namespace CallCensus.Pipeline

variable {σ α β ε : Type}

/-! ### One stage without a turn -/

lemma Room.inQueue_zero_ne_full {deserted : Bool} {capacity waiting : ℕ} (h : 0 < waiting) :
    Room.inQueue deserted capacity 0 waiting ≠ .full := by
  have hlt : 0 < (if capacity = 0 then waiting else capacity) := by
    split_ifs with hcap <;> omega
  rw [inQueue, if_pos hlt]
  cases deserted <;> simp

namespace Pool

variable {stage : Stage σ α β ε} {closed : Bool} {room : Room} {p : Pool σ α β ε}

/-- A pool whose queue is empty and has a worker that waits for an item. -/
def Waits (p : Pool σ α β ε) : Prop :=
  p.inbox = [] ∧ 0 < p.workers.countP Worker.isWaiting

/-- A pool without a turn whose sendings find room has ended, or it waits for items that
may still come. -/
lemma ended_or_waits (hroom : room ≠ .full) (hstuck : ∀ i, p.turn stage closed room i = none) :
    p.hasEnded = true ∨ (closed = false ∧ p.Waits) := by
  rw [or_iff_not_imp_left]
  intro hend
  obtain ⟨w, hw, hwend⟩ : ∃ w ∈ p.workers, w.hasEnded = false := by
    simpa [hasEnded] using hend
  obtain ⟨i, hi⟩ := List.mem_iff_getElem?.1 hw
  have hturn : w.turn stage closed room p.inbox = none := by
    have h := hstuck i
    simp only [turn, hi] at h
    split at h
    · assumption
    · cases h
  rcases Worker.cases_of_turn_eq_none hturn with h | ⟨hwait, hclosed, hinbox⟩ | h
  · simp [hwend] at h
  · exact ⟨hclosed, hinbox, List.countP_pos_iff.2 ⟨w, hw, hwait⟩⟩
  · exact absurd h hroom

lemma room_ne_full (capacity : ℕ) (h : p.hasEnded = true ∨ p.Waits) :
    p.room capacity ≠ .full := by
  rw [room, roomIn]
  rcases h with hend | ⟨hinbox, hwait⟩
  · rw [Room.inQueue_eq_gone.2 hend]
    simp
  · rw [hinbox]
    exact Room.inQueue_zero_ne_full hwait

end Pool

lemma Broadcaster.room_ne_full (capacity : ℕ) {b : Broadcaster α ε} {length : ℕ}
    (h : b.hasEnded = true ∨ ((∃ n, b = waiting n) ∧ length = 0)) :
    b.room capacity length ≠ .full := by
  rw [room, roomIn]
  rcases h with hend | ⟨⟨n, rfl⟩, rfl⟩
  · rw [Room.inQueue_eq_gone.2 hend]
    simp
  · exact Room.inQueue_zero_ne_full Nat.one_pos

/-! ### A pipeline without a turn -/

namespace State

variable {plan : Plan} {s : State}

lemma not_move {thread : Thread} (hstuck : s.turn plan thread = none) {t : State} :
    ¬Move plan s thread t :=
  fun h => Option.some_ne_none t ((turn_of_move h).symm.trans hstuck)

/-- The main thread without a turn does not keep anybody from sending. -/
lemma room_main_ne_full (hstuck : s.turn plan .main = none) :
    s.main.room plan.capacity s.counts.length ≠ .full := by
  cases hmain : s.main with
  | aggregating total =>
      have hcounts : s.counts = [] := by
        cases hcounts : s.counts with
        | nil => rfl
        | cons c rest =>
            cases hadd : plan.add total c with
            | ok total' => exact (not_move hstuck (.add hmain hcounts hadd)).elim
            | error e => exact (not_move hstuck (.refuse hmain hcounts hadd)).elim
      rw [hcounts, Main.room, Main.roomIn]
      exact Room.inQueue_zero_ne_full Nat.one_pos
  | joining total => simp [Main.room, Main.roomIn, Room.inQueue, Main.isAggregating]
  | returned result => simp [Main.room, Main.roomIn, Room.inQueue, Main.isAggregating]

/-- The main thread has a turn when all other threads have ended, unless it has
returned. -/
lemma hasReturned_of_othersEnded (hend : s.othersEnded = true)
    (hstuck : s.turn plan .main = none) : s.main.hasReturned = true := by
  have hcounters : s.countersEnded = true := by
    simp only [othersEnded, Bool.and_eq_true] at hend
    exact hend.2
  cases hmain : s.main with
  | aggregating total =>
      cases hcounts : s.counts with
      | nil => exact (not_move hstuck (.drain hmain hcounts hcounters)).elim
      | cons c rest =>
          cases hadd : plan.add total c with
          | ok total' => exact (not_move hstuck (.add hmain hcounts hadd)).elim
          | error e => exact (not_move hstuck (.refuse hmain hcounts hadd)).elim
  | joining total => exact (not_move hstuck (.finish hmain hend)).elim
  | returned result => rfl

/-- A pool whose turns are moves of a pipeline that has none has ended or waits for items, unless
its queue is full. -/
lemma pool_ended_or_waits (hstuck : ∀ thread, s.turn plan thread = none)
    {σ α β : Type} {p : Pool σ α β Cause} {stage : Stage σ α β Cause} {closed : Bool}
    {room : Room} {worker : ℕ → Thread} (hroom : room ≠ .full)
    (hmove : ∀ i r, p.turn stage closed room i = some r → ∃ t, Move plan s (worker i) t) :
    p.hasEnded = true ∨ (closed = false ∧ p.Waits) := by
  have hturn : ∀ i, p.turn stage closed room i = none := by
    refine fun i => Option.eq_none_iff_forall_ne_some.2 fun r hr => ?_
    obtain ⟨t, ht⟩ := hmove i r hr
    exact not_move (hstuck _) ht
  exact Pool.ended_or_waits hroom hturn

/-- A pool of counters without a turn has ended or waits for the broadcaster. -/
lemma counter_ended_or_waits (hcounters : plan.counters.length = s.counters.length)
    (hstuck : ∀ thread, s.turn plan thread = none) {pool : Pool Unit SourceFile CallCount Cause}
    (hpool : pool ∈ s.counters) :
    pool.hasEnded = true ∨ (s.broadcaster.hasEnded = false ∧ pool.Waits) := by
  obtain ⟨k, hk⟩ := List.mem_iff_getElem?.1 hpool
  have hlt : k < plan.counters.length := by
    rw [hcounters]
    exact (List.getElem?_eq_some_iff.1 hk).1
  have hstage : plan.counters[k]? = some plan.counters[k] := List.getElem?_eq_getElem hlt
  exact pool_ended_or_waits hstuck (room_main_ne_full (hstuck .main))
    fun i _ h => ⟨_, .counter k i hstage hk h⟩

/-- The broadcaster without a turn has ended or waits for files, unless the queue of a counter is
full. -/
lemma broadcaster_ended_or_waits (hstuck : s.turn plan .broadcaster = none)
    (hrooms : ∀ pool ∈ s.counters, pool.room plan.capacity ≠ .full) :
    s.broadcaster.hasEnded = true ∨
      ((∃ n, s.broadcaster = .waiting n) ∧ s.literals.hasEnded = false ∧ s.cleaned = []) := by
  refine Broadcaster.cases_of_turn_eq_none (List.forall_mem_map.2 hrooms)
    (Option.eq_none_iff_forall_ne_some.2 ?_)
  rintro ⟨b, cleaned, sent⟩ h
  exact not_move hstuck (.broadcaster h)

/-- When no thread has a turn the main thread has returned. -/
lemma hasReturned_of_forall_turn_eq_none (hcounters : plan.counters.length = s.counters.length)
    (hstuck : ∀ thread, s.turn plan thread = none) : s.main.hasReturned = true := by
  -- against the stream: nobody waits for room
  have hcounter : ∀ pool ∈ s.counters,
      pool.hasEnded = true ∨ (s.broadcaster.hasEnded = false ∧ pool.Waits) :=
    fun pool hpool => counter_ended_or_waits hcounters hstuck hpool
  have hbroadcaster := broadcaster_ended_or_waits (hstuck .broadcaster) fun pool hpool =>
    Pool.room_ne_full _ ((hcounter pool hpool).imp_right And.right)
  have hliterals : s.literals.hasEnded = true ∨ (s.imports.hasEnded = false ∧ s.literals.Waits) :=
    pool_ended_or_waits hstuck
      (Broadcaster.room_ne_full _ (hbroadcaster.imp_right fun h => ⟨h.1, by simp [h.2.2]⟩))
      fun i _ h => ⟨_, .literals i h⟩
  have himports : s.imports.hasEnded = true ∨ (s.comments.hasEnded = false ∧ s.imports.Waits) :=
    pool_ended_or_waits hstuck (Pool.room_ne_full _ (hliterals.imp_right And.right))
      fun i _ h => ⟨_, .imports i h⟩
  have hcomments : s.comments.hasEnded = true ∨ (s.extract.hasEnded = false ∧ s.comments.Waits) :=
    pool_ended_or_waits hstuck (Pool.room_ne_full _ (himports.imp_right And.right))
      fun i _ h => ⟨_, .comments i h⟩
  have hextract : s.extract.hasEnded = true ∨ (true = false ∧ s.extract.Waits) :=
    pool_ended_or_waits hstuck (Pool.room_ne_full _ (hcomments.imp_right And.right))
      fun i _ h => ⟨_, .extract i h⟩
  -- with the stream: nobody waits for items
  have hextract : s.extract.hasEnded = true := by simpa using hextract
  have hcomments : s.comments.hasEnded = true := by simpa [hextract] using hcomments
  have himports : s.imports.hasEnded = true := by simpa [hcomments] using himports
  have hliterals : s.literals.hasEnded = true := by simpa [himports] using hliterals
  have hbroadcaster : s.broadcaster.hasEnded = true := by simpa [hliterals] using hbroadcaster
  have hcounters : s.countersEnded = true := by
    rw [countersEnded, List.all_eq_true]
    intro pool hpool
    simpa [hbroadcaster] using hcounter pool hpool
  refine hasReturned_of_othersEnded ?_ (hstuck .main)
  simp [othersEnded, hextract, hcomments, himports, hliterals, hbroadcaster, hcounters]

end State

/-- A state that a plan reaches and in which no thread has a turn is one in which the main
thread has returned. -/
lemma exists_returned {plan : Plan} {workers counterWorkers operators : ℕ} {tallies : List ℕ}
    {archives : List Archive.Reference} {total : Aggregate} {s : State}
    (hoperators : plan.counters.length = operators)
    (hreach : Relation.ReflTransGen (State.Step plan)
      (.start workers counterWorkers operators tallies archives total) s)
    (hstuck : ∀ t, ¬State.Step plan s t) : ∃ result, s.main = .returned result := by
  obtain ⟨happened, hexec⟩ := reachable_iff_exists_execution.1 hreach
  have hfree := hexec.mono fun _ _ _ h => h.free ⟨rfl, hoperators⟩
  have hnone : ∀ thread, s.turn plan thread = none := fun thread =>
    Option.eq_none_iff_forall_ne_some.2 fun t ht => hstuck t ⟨thread, ht⟩
  have hreturned := State.hasReturned_of_forall_turn_eq_none
    (hoperators.trans hfree.length_counters.symm) hnone
  cases hmain : s.main with
  | returned result => exact ⟨result, rfl⟩
  | aggregating total => simp [hmain, Main.hasReturned] at hreturned
  | joining total => simp [hmain, Main.hasReturned] at hreturned

/-- What holds of everything that the main thread can return is what every execution ends
with: none goes on for ever, and in a state without turns the main thread has returned. The
schedule of a run is one of them. -/
lemma execution_ends {plan : Plan} {workers counterWorkers operators : ℕ} {tallies : List ℕ}
    {archives : List Archive.Reference} {total : Aggregate}
    (hoperators : plan.counters.length = operators)
    {P : Except (Failure Cause) Outcome → Prop}
    (hreturned : ∀ s, Relation.ReflTransGen (State.Step plan)
      (.start workers counterWorkers operators tallies archives total) s →
        ∀ result, s.main = .returned result → P result) :
    (∀ s, Relation.ReflTransGen (State.Step plan)
        (.start workers counterWorkers operators tallies archives total) s →
      (∀ t, ¬State.Step plan s t) → ∃ result, s.main = .returned result ∧ P result) ∧
    (¬∃ states : ℕ → State,
      states 0 = .start workers counterWorkers operators tallies archives total ∧
        ∀ n, State.Step plan (states n) (states (n + 1))) ∧
    ∃ result, ((State.start workers counterWorkers operators tallies archives total).run plan).main
      = .returned result ∧ P result := by
  have hend : ∀ s, Relation.ReflTransGen (State.Step plan)
      (.start workers counterWorkers operators tallies archives total) s →
      (∀ t, ¬State.Step plan s t) → ∃ result, s.main = .returned result ∧ P result := by
    intro s hreach hstuck
    obtain ⟨result, hmain⟩ := exists_returned hoperators hreach hstuck
    exact ⟨result, hmain, hreturned s hreach result hmain⟩
  refine ⟨hend, ?_, hend _ (reachable_run _ _) ?_⟩
  · rintro ⟨states, -, hsteps⟩
    choose thread hthread using hsteps
    exact (wellFounded_iff_isEmpty_descending_chain.1 State.Lower.wf).false
      ⟨fun n => (states n).measure, fun n => State.turn_decreases (hthread n)⟩
  · rintro t ⟨thread, hturn⟩
    rw [State.turn_run] at hturn
    cases hturn

/-! ### All executions -/

/-- As long as the main thread has not returned some thread has a turn. -/
lemma Execution.exists_turn {capacity operators workers counterWorkers : ℕ} {tallies : List ℕ}
    {archives : List Archive.Reference} {total : Aggregate} {happened : List (Failure Cause)}
    {s : State}
    (h : Execution (FreeStep capacity operators)
      (.start workers counterWorkers operators tallies archives total) happened s)
    (hmain : s.main.hasReturned = false) {plan : Plan} (hplan : plan.Fits capacity operators) :
    ∃ thread t, s.turn plan thread = some t := by
  by_contra hstuck
  have hnone : ∀ thread, s.turn plan thread = none := fun thread =>
    Option.eq_none_iff_forall_ne_some.2 fun t ht => hstuck ⟨thread, t, ht⟩
  have hcounters : plan.counters.length = s.counters.length := by
    rw [hplan.2, h.length_counters]
  have hreturned := State.hasReturned_of_forall_turn_eq_none hcounters hnone
  rw [hmain] at hreturned
  cases hreturned

/-- **Progress and termination.** The main thread has handed out the ends of the queues and
has started the other threads; a queue is closed when nobody holds an end to send to it, and
sending to it fails when nobody holds an end to take from it. Then, whatever the stages do,
whichever workers fail or panic and whichever counts are refused: as long as the main thread
has not returned some thread has a turn, every step lowers a well-founded measure, and so no
execution goes on for ever. -/
theorem progress_and_termination (capacity operators workers counterWorkers : ℕ)
    (tallies : List ℕ) (archives : List Archive.Reference) (total : Aggregate) :
    (∀ happened x,
      Execution (HeldStep capacity operators)
          (.start workers counterWorkers operators tallies archives total) happened x →
        x.state.main.hasReturned = false → ∀ plan : Plan, plan.Fits capacity operators →
          ∃ thread y, x.turn plan thread = some y) ∧
      (∀ x f y, HeldStep capacity operators x f y →
        State.Lower.rel y.state.measure x.state.measure) ∧
      WellFounded State.Lower.rel ∧
      ¬ ∃ run : ℕ → Held, ∀ n, ∃ f, HeldStep capacity operators (run n) f (run (n + 1)) := by
  refine ⟨fun happened x hexec hmain plan hplan => ?_, fun x f y h => h.measure_lt,
    State.Lower.wf, ?_⟩
  · obtain ⟨hsound, hfree⟩ := hexec.of_held
    obtain ⟨thread, s, hs⟩ := hfree.exists_turn hmain hplan
    refine ⟨thread, x.after thread s, ?_⟩
    rw [hsound.turn_eq, hs, Option.map_some]
  · rintro ⟨run, hrun⟩
    choose f hf using hrun
    exact (wellFounded_iff_isEmpty_descending_chain.1 State.Lower.wf).false
      ⟨fun n => (run n).state.measure, fun n => (hf n).measure_lt⟩

/-- An execution in which the comment stage has panicked and the first worker of the pipeline has
found nobody to send its second file to. The pipeline goes on, and its next turn lowers the
measure. -/
theorem progress_and_termination_panicking : ∃ happened x,
    Execution (HeldStep 1 1)
        (.start 1 1 1 [] [⟨"a.tgz", "a.tgz"⟩] (.start (.dense [] []) none)) happened x ∧
      Failure.panicked "strip-comments" ∈ happened ∧
      x.state.main.hasReturned = false ∧
      ∃ thread y, x.turn .panicking thread = some y ∧
        State.Lower.rel y.state.measure x.state.measure := by
  have h : Execution (HeldStep 1 1)
      (.start 1 1 1 [] [⟨"a.tgz", "a.tgz"⟩] (.start (.dense [] []) none)) [] _ := .start
  have h := h.turn .panicking ⟨rfl, rfl⟩ (.extract 0) rfl
  have h := h.turn .panicking ⟨rfl, rfl⟩ (.extract 0) rfl
  have h := h.turn .panicking ⟨rfl, rfl⟩ (.comments 0) rfl
  have h := h.turn .panicking ⟨rfl, rfl⟩ (.comments 0) rfl
  -- the comment stage is gone, and the second file has nowhere to go
  have h := h.turn .panicking ⟨rfl, rfl⟩ (.extract 0) rfl
  obtain ⟨hprogress, hlower, -⟩ :=
    progress_and_termination 1 1 1 1 [] [⟨"a.tgz", "a.tgz"⟩] (.start (.dense [] []) none)
  obtain ⟨thread, y, hy⟩ := hprogress _ _ h rfl .panicking ⟨rfl, rfl⟩
  have hlt := hlower _ _ _ (.turn .panicking ⟨rfl, rfl⟩ thread hy)
  exact ⟨_, _, h, List.mem_singleton.2 rfl, rfl, thread, y, hy, hlt⟩

end CallCensus.Pipeline
