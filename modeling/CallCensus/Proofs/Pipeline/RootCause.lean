import CallCensus.Proofs.Pipeline.Chain
import CallCensus.Proofs.Pipeline.Handles

/-!
The failure that a pipeline returns is one that really happened.

A failure that happens is recorded: some thread ends with it. Threads only ever end with
failures that have happened and with echoes, and no record is lost before the main thread
returns. By the chain of stages the main thread then finds a genuine failure whenever there
is one.

* `State.Failed.of_move`, `State.Failed.of_move_inv`: what a turn does to the records;
* `State.result_ok`, `State.exists_result_error`: what the main thread returns;
* `Execution.explained`: the invariant of executions;
* `result_explains`: a run succeeds exactly when no failure has happened, and otherwise
  returns a failure that has happened and is no echo.
-/

namespace CallCensus.Pipeline

namespace State

/-! ### What has happened and what is recorded -/

section Record

variable {plan : Plan} {s t : State} {thread : Thread} {f : Failure Cause}

/-- To compare the failures of two states, compare them stage by stage. -/
lemma Failed.transfer {P : Prop} (hf : s.Failed f)
    (hextract : s.extract.Failed f → t.extract.Failed f ∨ P)
    (hcomments : s.comments.Failed f → t.comments.Failed f ∨ P)
    (himports : s.imports.Failed f → t.imports.Failed f ∨ P)
    (hliterals : s.literals.Failed f → t.literals.Failed f ∨ P)
    (hbroadcaster : s.broadcaster = .ended (.error f) → t.broadcaster = .ended (.error f) ∨ P)
    (hcounters : ∀ pool ∈ s.counters, pool.Failed f →
      (∃ pool' ∈ t.counters, pool'.Failed f) ∨ P)
    (hmain : ∀ e, s.main = .joining (.error e) → f = .cause e →
      t.main = .joining (.error e) ∨ P) : t.Failed f ∨ P := by
  cases hf with
  | extract h => exact (hextract h).imp_left .extract
  | comments h => exact (hcomments h).imp_left .comments
  | imports h => exact (himports h).imp_left .imports
  | literals h => exact (hliterals h).imp_left .literals
  | broadcaster h => exact (hbroadcaster h).imp_left .broadcaster
  | counter pool hpool h =>
      exact (hcounters pool hpool h).imp_left fun ⟨pool', hpool', h'⟩ => .counter pool' hpool' h'
  | main e hmain' hf => exact (hmain e hmain' hf).imp_left fun h => .main e h hf

/-- What threads have ended with stays, until the main thread returns. -/
lemma Failed.of_move (hf : s.Failed f) (hmove : Move plan s thread t)
    (hreturned : t.main.hasReturned = false) : t.Failed f := by
  suffices h : t.Failed f ∨ False from h.resolve_right id
  have hsame : ∀ pool ∈ s.counters, pool.Failed f →
      (∃ pool' ∈ s.counters, pool'.Failed f) ∨ False :=
    fun pool hpool h => .inl ⟨pool, hpool, h⟩
  cases hmove with
  | extract i ht =>
      exact hf.transfer (fun h => .inl (Pool.ended_mem_of_turn ht h))
        .inl .inl .inl .inl hsame fun e h _ => .inl h
  | comments i ht =>
      exact hf.transfer .inl (fun h => .inl (Pool.ended_mem_of_turn ht h))
        .inl .inl .inl hsame fun e h _ => .inl h
  | imports i ht =>
      exact hf.transfer .inl .inl (fun h => .inl (Pool.ended_mem_of_turn ht h))
        .inl .inl hsame fun e h _ => .inl h
  | literals i ht =>
      exact hf.transfer .inl .inl .inl (fun h => .inl (Pool.ended_mem_of_turn ht h))
        .inl hsame fun e h _ => .inl h
  | @broadcaster b cleaned sent ht =>
      have hend := (Broadcaster.move_of_turn ht).hasEnded_eq_false
      refine hf.transfer .inl .inl .inl .inl (fun h => ?_) (fun pool hpool h => ?_)
        fun e h _ => .inl h
      · rw [h] at hend
        cases hend
      · obtain ⟨new, hnew, hworkers⟩ := exists_mem_deliver sent hpool
        exact .inl ⟨new, hnew, by rwa [Pool.Failed, hworkers]⟩
  | @counter k i stage pool pool' sent hstage hpool ht =>
      have hstays : pool.Failed f → pool'.Failed f := Pool.ended_mem_of_turn ht
      exact hf.transfer .inl .inl .inl .inl .inl
        (fun old hold h => .inl (exists_mem_set hpool hstays hold h)) fun e h _ => .inl h
  | add hmain hcounts hadd =>
      exact hf.transfer .inl .inl .inl .inl .inl hsame fun e h _ => by rw [hmain] at h; cases h
  | refuse hmain hcounts hadd =>
      exact hf.transfer .inl .inl .inl .inl .inl hsame fun e h _ => by rw [hmain] at h; cases h
  | drain hmain hcounts hended =>
      exact hf.transfer .inl .inl .inl .inl .inl hsame fun e h _ => by rw [hmain] at h; cases h
  | finish hmain hended => cases hreturned

/-- The failure that happens at a turn is recorded by it. -/
lemma failed_of_failing? (hmove : Move plan s thread t) (hf : s.failing? plan thread = some f) :
    t.Failed f := by
  cases hmove with
  | extract i ht => exact .extract (Pool.failed_of_failing? ht hf)
  | comments i ht => exact .comments (Pool.failed_of_failing? ht hf)
  | imports i ht => exact .imports (Pool.failed_of_failing? ht hf)
  | literals i ht => exact .literals (Pool.failed_of_failing? ht hf)
  | broadcaster ht => cases hf
  | counter k i hstage hpool ht =>
      simp only [failing?, hstage, hpool] at hf
      exact .counter _ (List.mem_set (List.getElem?_eq_some_iff.1 hpool).1 _)
        (Pool.failed_of_failing? ht hf)
  | add hmain hcounts hadd => simp [failing?, refusal?, hmain, hcounts, hadd] at hf
  | refuse hmain hcounts hadd =>
      simp only [failing?, refusal?, hmain, hcounts, hadd, Option.some.injEq] at hf
      exact .main _ rfl hf.symm
  | drain hmain hcounts hended => simp [failing?, refusal?, hmain, hcounts] at hf
  | finish hmain hended => simp [failing?, refusal?, hmain] at hf

/-- A turn only records the failure that happens at it, and echoes. -/
lemma Failed.of_move_inv (hf : t.Failed f) (hmove : Move plan s thread t) :
    s.Failed f ∨ s.failing? plan thread = some f ∨ f.isEcho = true := by
  have hsame : ∀ pool ∈ s.counters, pool.Failed f →
      (∃ pool' ∈ s.counters, pool'.Failed f) ∨
        s.failing? plan thread = some f ∨ f.isEcho = true :=
    fun pool hpool h => .inl ⟨pool, hpool, h⟩
  cases hmove with
  | extract i ht =>
      exact hf.transfer (fun h => (Pool.failed_of_turn ht h).imp_right (.imp_right And.left))
        .inl .inl .inl .inl hsame fun e h _ => .inl h
  | comments i ht =>
      exact hf.transfer .inl
        (fun h => (Pool.failed_of_turn ht h).imp_right (.imp_right And.left))
        .inl .inl .inl hsame fun e h _ => .inl h
  | imports i ht =>
      exact hf.transfer .inl .inl
        (fun h => (Pool.failed_of_turn ht h).imp_right (.imp_right And.left))
        .inl .inl hsame fun e h _ => .inl h
  | literals i ht =>
      exact hf.transfer .inl .inl .inl
        (fun h => (Pool.failed_of_turn ht h).imp_right (.imp_right And.left))
        .inl hsame fun e h _ => .inl h
  | broadcaster ht =>
      refine hf.transfer .inl .inl .inl .inl (fun h => ?_) (fun pool hpool h => ?_)
        fun e h _ => .inl h
      · exact .inr (.inr ((Broadcaster.move_of_turn ht).exists_gone h).1)
      · obtain ⟨old, hold, rfl | ⟨k, file, -, rfl⟩⟩ := mem_deliver hpool
        · exact .inl ⟨_, hold, h⟩
        · exact .inl ⟨old, hold, h⟩
  | counter k i hstage hpool ht =>
      refine hf.transfer .inl .inl .inl .inl .inl (fun new hnew h => ?_) fun e h _ => .inl h
      rcases List.mem_or_eq_of_mem_set hnew with hold | rfl
      · exact .inl ⟨new, hold, h⟩
      · rcases Pool.failed_of_turn ht h with hold | hfail | ⟨hecho, -⟩
        · exact .inl ⟨_, List.mem_of_getElem? hpool, hold⟩
        · exact .inr (.inl (by simp only [failing?, hstage, hpool, hfail]))
        · exact .inr (.inr hecho)
  | add hmain hcounts hadd =>
      exact hf.transfer .inl .inl .inl .inl .inl hsame fun e h _ => by cases h
  | refuse hmain hcounts hadd =>
      refine hf.transfer .inl .inl .inl .inl .inl hsame fun e h hfe => .inr (.inl ?_)
      cases h
      simp [failing?, refusal?, hmain, hcounts, hadd, hfe]
  | drain hmain hcounts hended =>
      exact hf.transfer .inl .inl .inl .inl .inl hsame fun e h _ => by cases h
  | finish hmain hended =>
      exact hf.transfer .inl .inl .inl .inl .inl hsame fun e h _ => by cases h

/-- Threads that have failed have still failed after a panic of the broadcaster. -/
lemma Failed.panic (hf : s.Failed f) (hend : s.broadcaster.hasEnded = false) :
    ({ s with broadcaster := .ended (.error (.panicked Broadcaster.name)) } : State).Failed f := by
  cases hf with
  | extract h => exact .extract h
  | comments h => exact .comments h
  | imports h => exact .imports h
  | literals h => exact .literals h
  | broadcaster h => simp [h, Broadcaster.hasEnded] at hend
  | counter pool hpool h => exact .counter pool hpool h
  | main e hmain hf => exact .main e hmain hf

/-- A panic of the broadcaster records nothing else. -/
lemma Failed.of_panic
    (hf : ({ s with
      broadcaster := .ended (.error (.panicked Broadcaster.name)) } : State).Failed f) :
    s.Failed f ∨ f = .panicked Broadcaster.name := by
  cases hf with
  | extract h => exact .inl (.extract h)
  | comments h => exact .inl (.comments h)
  | imports h => exact .inl (.imports h)
  | literals h => exact .inl (.literals h)
  | broadcaster h =>
      cases h
      exact .inr rfl
  | counter pool hpool h => exact .inl (.counter pool hpool h)
  | main e hmain hf => exact .inl (.main e hmain hf)

/-- Nothing has failed at the start. -/
lemma not_failed_start {workers counterWorkers operators : ℕ} {tallies : List ℕ}
    {archives : List Archive.Reference} {total : Aggregate} :
    ¬(State.start workers counterWorkers operators tallies archives total).Failed f := by
  intro hf
  cases hf with
  | broadcaster h => cases h
  | counter pool hpool h =>
      obtain rfl := List.eq_of_mem_replicate hpool
      simp [Pool.Failed, Pool.start] at h
  | main e hmain hf => cases hmain
  | _ h => simp [State.start, Pool.Failed, Pool.start] at h

end Record

/-! ### What the main thread returns -/

/-- Of failures that are not all echoes, the root cause is no echo. -/
lemma rootCause?_of_exists {failures : List (Failure Cause)}
    (h : ∃ f ∈ failures, f.isEcho = false) :
    ∃ f ∈ failures, f.isEcho = false ∧ rootCause? failures = some f := by
  cases hfind : failures.find? fun f => !f.isEcho with
  | none =>
      obtain ⟨f, hf, hecho⟩ := h
      have := List.find?_eq_none.1 hfind f hf
      simp [hecho] at this
  | some f =>
      refine ⟨f, List.mem_of_find?_eq_some hfind, ?_, ?_⟩
      · simpa using List.find?_some hfind
      · rw [rootCause?, hfind]

section Result

variable {s : State} {total : Except Cause Aggregate} {f : Failure Cause}

/-- The main thread only finds failures that threads have ended with, and its own. -/
lemma failed_of_mem_failures (hmain : ∀ e, total = .error e → s.main = .joining (.error e))
    (hf : f ∈ s.failures total) : s.Failed f := by
  simp only [failures, List.mem_append, List.mem_filterMap, Option.mem_toList] at hf
  rcases hf with hf | ((((hf | hf) | hf) | hf) | hf) | ⟨pool, hpool, hf⟩
  · cases total with
    | ok total => cases hf
    | error e => exact .main e (hmain e rfl) (by simpa using hf)
  · exact .extract (Pool.failed_of_failure? hf)
  · exact .comments (Pool.failed_of_failure? hf)
  · exact .imports (Pool.failed_of_failure? hf)
  · exact .literals (Pool.failed_of_failure? hf)
  · rw [broadcastFailure?] at hf
    split at hf <;> cases hf
    exact .broadcaster ‹_›
  · exact .counter pool hpool (Pool.failed_of_failure? hf)

/-- Nothing has failed where only echoes have. -/
lemma Chain.not_failed_of_forall_isEcho (h : s.Chain) (hrefused : ¬s.main.Refused)
    (hecho : ∀ g, s.Failed g → g.isEcho = true) (f : Failure Cause) : ¬s.Failed f := by
  intro hf
  have hvisible : ∀ total : Aggregate, ∀ g ∈ s.failures (.ok total), g.isEcho = true :=
    fun total g hg => hecho g (failed_of_mem_failures (fun e he => by cases he) hg)
  exact h.not_failed_of_echoes hrefused (hvisible ⟨.dense [] [], 0, none⟩) f hf

lemma result_ok (total : Aggregate) (h : ∀ f, ¬s.Failed f) :
    s.result (.ok total) = .ok (total, s.imports.states) := by
  have hnil : s.failures (.ok total) = [] :=
    List.eq_nil_iff_forall_not_mem.2 fun f hf =>
      h f (failed_of_mem_failures (fun e he => by cases he) hf)
  simp only [result, hnil, rootCause?, List.find?_nil, List.head?_nil]

lemma exists_result_ok (hmain : s.main = .joining total) (h : ∀ f, ¬s.Failed f) :
    ∃ outcome, s.result total = .ok outcome := by
  cases total with
  | error e => exact absurd (.main e hmain rfl) (h (.cause e))
  | ok total => exact ⟨_, result_ok total h⟩

lemma result_error (e : Cause) : s.result (.error e) = .error (.cause e) := by
  simp [result, failures, rootCause?, Failure.isEcho]

/-- When something has failed the main thread returns a failure that threads have ended with
and that is no echo. -/
lemma exists_result_error (hchain : s.Chain) (hmain : s.main = .joining total)
    (h : ∃ f, s.Failed f) :
    ∃ f, s.result total = .error f ∧ f.isEcho = false ∧ s.Failed f := by
  have hgenuine : ∃ g ∈ s.failures total, g.isEcho = false := by
    by_contra hnone
    push Not at hnone
    simp only [ne_eq, Bool.not_eq_false] at hnone
    cases total with
    | error e => cases hnone (.cause e) (by simp [failures])
    | ok total =>
        obtain ⟨f, hf⟩ := h
        exact hchain.not_failed_of_echoes (by simp [hmain, Main.Refused]) hnone f hf
  obtain ⟨f, hf, hecho, hroot⟩ := rootCause?_of_exists hgenuine
  exact ⟨f, by simp only [result, hroot], hecho, failed_of_mem_failures (fun e he => he ▸ hmain) hf⟩

end Result

/-! ### Executions -/

section Executions

variable {plan : Plan} {s t : State} {thread : Thread}

/-- The main thread returns in one way. -/
lemma Move.exists_joining (h : Move plan s thread t) (hs : s.main.hasReturned = false)
    (ht : t.main.hasReturned = true) :
    ∃ total, s.main = .joining total ∧ s.othersEnded = true ∧
      s.failing? plan thread = none ∧ t = { s with main := .returned (s.result total) } := by
  cases h with
  | finish hmain hended =>
      exact ⟨_, hmain, hended, by simp [failing?, refusal?, hmain], rfl⟩
  | add => cases ht
  | refuse => cases ht
  | drain => cases ht
  | _ => exact absurd (hs.symm.trans ht) (by decide)

/-- No thread has a turn after all have ended. -/
lemma not_move_of_ended {result : Except (Failure Cause) Outcome}
    (hmain : s.main = .returned result) (hended : s.othersEnded = true) :
    ¬Move plan s thread t := by
  simp only [othersEnded, Bool.and_eq_true] at hended
  obtain ⟨⟨⟨⟨⟨hextract, hcomments⟩, himports⟩, hliterals⟩, hbroadcaster⟩, hcounters⟩ := hended
  intro h
  cases h with
  | extract i ht => simp [Pool.hasEnded_eq_false_of_turn ht] at hextract
  | comments i ht => simp [Pool.hasEnded_eq_false_of_turn ht] at hcomments
  | imports i ht => simp [Pool.hasEnded_eq_false_of_turn ht] at himports
  | literals i ht => simp [Pool.hasEnded_eq_false_of_turn ht] at hliterals
  | broadcaster ht =>
      simp [(Broadcaster.move_of_turn ht).hasEnded_eq_false] at hbroadcaster
  | counter k i hstage hpool ht =>
      have := List.all_eq_true.1 hcounters _ (List.mem_of_getElem? hpool)
      simp [Pool.hasEnded_eq_false_of_turn ht] at this
  | add hmain' => simp [hmain] at hmain'
  | refuse hmain' => simp [hmain] at hmain'
  | drain hmain' => simp [hmain] at hmain'
  | finish hmain' => simp [hmain] at hmain'

/-- The invariant of executions. As long as the main thread has not returned, the failures
that have happened are those that threads have ended with, echoes apart. After that, its
result tells of one of them, if there are any. -/
inductive Explained (happened : List (Failure Cause)) (s : State) : Prop
  | running (hreturned : s.main.hasReturned = false) (chain : s.Chain)
      (recorded : ∀ f ∈ happened, s.Failed f)
      (genuine : ∀ f, s.Failed f → f.isEcho = false → f ∈ happened)
  | returned (result : Except (Failure Cause) Outcome) (hmain : s.main = .returned result)
      (hended : s.othersEnded = true)
      (succeeds : (∃ outcome, result = .ok outcome) ↔ happened = [])
      (explains : ∀ f, result = .error f → f.isEcho = false ∧ f ∈ happened)

namespace Explained

variable {happened : List (Failure Cause)}

/-- The main thread explains what has happened when it returns. -/
lemma finish {total : Except Cause Aggregate} (hchain : s.Chain)
    (recorded : ∀ f ∈ happened, s.Failed f)
    (genuine : ∀ f, s.Failed f → f.isEcho = false → f ∈ happened)
    (hmain : s.main = .joining total) (hended : s.othersEnded = true) :
    Explained happened { s with main := .returned (s.result total) } := by
  by_cases hfail : ∃ f, s.Failed f
  · obtain ⟨f, hresult, hecho, hf⟩ := exists_result_error hchain hmain hfail
    have hmem := genuine f hf hecho
    refine .returned _ rfl hended ?_ ?_
    · simp [hresult, List.ne_nil_of_mem hmem]
    · rintro g hg
      obtain rfl : f = g := by simpa [hresult] using hg
      exact ⟨hecho, hmem⟩
  · push Not at hfail
    obtain ⟨outcome, hresult⟩ := exists_result_ok hmain hfail
    have hnil : happened = [] :=
      List.eq_nil_iff_forall_not_mem.2 fun f hf => hfail f (recorded f hf)
    refine .returned _ rfl hended ?_ ?_
    · simp [hresult, hnil]
    · intro f hf
      simp [hresult] at hf

/-- Every step keeps the invariant. -/
lemma step {capacity operators : ℕ} {f : Option (Failure Cause)} (h : Explained happened s)
    (hstep : FreeStep capacity operators s f t) : Explained (happened ++ f.toList) t := by
  cases h with
  | returned result hmain hended succeeds explains =>
      cases hstep with
      | turn plan hplan thread ht =>
          exact absurd (move_of_turn ht) (not_move_of_ended hmain hended)
      | panic hend =>
          simp [othersEnded, hend] at hended
  | running hreturned chain recorded genuine =>
      cases hstep with
      | turn plan hplan thread ht =>
          have hmove := move_of_turn ht
          cases hback : t.main.hasReturned with
          | true =>
              obtain ⟨total, hmain, hended, hnone, rfl⟩ := hmove.exists_joining hreturned hback
              rw [hnone, Option.toList_none, List.append_nil]
              exact finish chain recorded genuine hmain hended
          | false =>
              refine .running hback (chain.move hmove) ?_ ?_
              · intro f hf
                rcases List.mem_append.1 hf with hold | hnew
                · exact (recorded f hold).of_move hmove hback
                · exact failed_of_failing? hmove (by simpa using hnew)
              · intro f hf hecho
                rcases hf.of_move_inv hmove with hold | hnew | hnew
                · exact List.mem_append_left _ (genuine f hold hecho)
                · exact List.mem_append_right _ (by simp [hnew])
                · rw [hecho] at hnew
                  cases hnew
      | panic hend =>
          refine .running hreturned (chain.panic hend) ?_ ?_
          · intro f hf
            rcases List.mem_append.1 hf with hold | hnew
            · exact (recorded f hold).panic hend
            · obtain rfl : f = .panicked Broadcaster.name := by simpa using hnew
              exact .broadcaster rfl
          · intro f hf hecho
            rcases hf.of_panic with hold | rfl
            · exact List.mem_append_left _ (genuine f hold hecho)
            · simp

end Explained

end Executions

end State

/-- The invariant holds in every execution. -/
lemma Execution.explained {capacity operators workers counterWorkers : ℕ} {tallies : List ℕ}
    {archives : List Archive.Reference} {total : Aggregate} (hw : 1 ≤ workers)
    (hc : 1 ≤ counterWorkers) {happened : List (Failure Cause)} {s : State}
    (h : Execution (FreeStep capacity operators)
      (.start workers counterWorkers operators tallies archives total) happened s) :
    s.Explained happened := by
  induction h with
  | start => exact .running rfl (.start hw hc) (by simp) fun f hf => absurd hf State.not_failed_start
  | step _ h ih => exact ih.step h

/-- **A pipeline explains its failure.** In every execution of a pipeline, whatever its
workers do, whichever of them fail or panic, whichever counts are refused, and in whichever
order the threads take their turns: when the main thread has returned, it has succeeded
exactly when no failure has happened, and otherwise it has returned one of the failures that
have happened, and no echo. -/
theorem result_explains (capacity operators workers counterWorkers : ℕ) (tallies : List ℕ)
    (archives : List Archive.Reference) (total : Aggregate) (hw : 1 ≤ workers)
    (hc : 1 ≤ counterWorkers) (happened : List (Failure Cause)) (x : Held)
    (h : Execution (HeldStep capacity operators)
      (.start workers counterWorkers operators tallies archives total) happened x)
    (result : Except (Failure Cause) Outcome) (hmain : x.state.main = .returned result) :
    ((∃ outcome, result = .ok outcome) ↔ happened = []) ∧
      ∀ f, result = .error f → f.isEcho = false ∧ f ∈ happened := by
  cases h.of_held.2.explained hw hc with
  | running hreturned =>
      rw [hmain] at hreturned
      cases hreturned
  | returned result' hmain' _ succeeds explains =>
      obtain rfl : result = result' := by
        rw [hmain] at hmain'
        cases hmain'
        rfl
      exact ⟨succeeds, explains⟩

/-- An execution in which the comment stage panics while the first worker of the pipeline
still has a file to send. That worker ends as an echo, and is the first that the main thread
looks at, but the panic is what it returns. -/
theorem result_explains_panicking : ∃ happened x,
    Execution (HeldStep 1 1)
        (.start 1 1 1 [] [⟨"a.tgz", "a.tgz"⟩] (.start (.dense [] []) none)) happened x ∧
      x.state.extract.Failed (.disconnected "extract") ∧
      x.state.main = .returned (.error (.panicked "strip-comments")) ∧
      Failure.panicked "strip-comments" ∈ happened := by
  have h : Execution (HeldStep 1 1)
      (.start 1 1 1 [] [⟨"a.tgz", "a.tgz"⟩] (.start (.dense [] []) none)) [] _ := .start
  have h := h.turn .panicking ⟨rfl, rfl⟩ (.extract 0) rfl
  have h := h.turn .panicking ⟨rfl, rfl⟩ (.extract 0) rfl
  have h := h.turn .panicking ⟨rfl, rfl⟩ (.comments 0) rfl
  have h := h.turn .panicking ⟨rfl, rfl⟩ (.comments 0) rfl
  -- the comment stage is gone, and the second file has nowhere to go
  have h := h.turn .panicking ⟨rfl, rfl⟩ (.extract 0) rfl
  have h := h.turn .panicking ⟨rfl, rfl⟩ (.imports 0) rfl
  have h := h.turn .panicking ⟨rfl, rfl⟩ (.literals 0) rfl
  have h := h.turn .panicking ⟨rfl, rfl⟩ .broadcaster rfl
  have h := h.turn .panicking ⟨rfl, rfl⟩ (.counter 0 0) rfl
  have h := h.turn .panicking ⟨rfl, rfl⟩ .main rfl
  have h := h.turn .panicking ⟨rfl, rfl⟩ .main rfl
  obtain ⟨-, hexplains⟩ :=
    result_explains 1 1 1 1 [] _ _ (Nat.le_refl 1) (Nat.le_refl 1) _ _ h _ rfl
  exact ⟨_, _, h, List.mem_singleton.2 rfl, rfl, (hexplains _ rfl).2⟩

end CallCensus.Pipeline
