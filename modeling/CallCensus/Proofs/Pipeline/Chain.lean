import CallCensus.Proofs.Pipeline.Executions

/-!
The chain of stages: why no failure of a pipeline is an echo alone.

When a thread fails, those before it lose their consumer and end as well, so most of the
failures that the main thread finds may be echoes, and of every pool it only sees the
failure of the first worker. What saves the report is a chain: a worker ends as an echo only
when a thread of the next stage has failed. So the last stage that has failed holds no echo,
and whichever of its failures the main thread sees is a genuine one.

* `Pool.Failed`, `State.Failed`: the failures that threads have ended with;
* `Pool.Linked`: how a pool hangs together with its neighbours;
* `State.Chain`: all the links of a pipeline, which every turn keeps (`Chain.move`);
* `Chain.not_failed_of_echoes`: where the main thread finds only echoes nothing has failed.
-/

namespace CallCensus.Pipeline

variable {σ α β ε : Type}

/-! ### How threads end -/

namespace Worker.Move

variable {stage : Stage σ α β ε} {closed : Bool} {room : Room} {w w' : Worker σ β ε}
  {inbox inbox' : List α} {sent : Option β} {f : Failure ε}

/-- A worker ends with a failure that happens at this turn, or as an echo. -/
lemma failing_or_echo (h : Move stage closed room w inbox w' inbox' sent)
    (hw : w' = .ended (.error f)) :
    w.failing? stage.name = some f ∨ (f.isEcho = true ∧ room = .gone) := by
  cases h <;> cases hw
  case lose hroom => exact .inr ⟨rfl, hroom⟩
  case fail => exact .inl rfl
  case panic => exact .inl rfl

lemma eq_of_failing? (h : Move stage closed room w inbox w' inbox' sent)
    (hf : w.failing? stage.name = some f) : w' = .ended (.error f) := by
  cases h <;> cases hf <;> rfl

lemma closed_of_ok {state : σ} (h : Move stage closed room w inbox w' inbox' sent)
    (hw : w' = .ended (.ok state)) : closed = true ∧ inbox' = [] := by
  cases h <;> cases hw
  case finish hclosed => exact ⟨hclosed, rfl⟩

lemma inbox_eq_nil (h : Move stage closed room w inbox w' inbox' sent) (hinbox : inbox = []) :
    inbox' = [] := by
  cases h <;> first | exact hinbox | rfl | cases hinbox

end Worker.Move

namespace Broadcaster.Move

variable {closed : Bool} {rooms : List Room} {b b' : Broadcaster α ε} {inbox inbox' : List α}
  {sent : Option (ℕ × α)}

lemma closed_of_ok {n : ℕ} (h : Move closed rooms b inbox b' inbox' sent)
    (hb : b' = .ended (.ok n)) : closed = true ∧ inbox' = [] := by
  cases h <;> cases hb
  case finish hclosed => exact ⟨hclosed, rfl⟩

lemma exists_gone {f : Failure ε} (h : Move closed rooms b inbox b' inbox' sent)
    (hb : b' = .ended (.error f)) : f.isEcho = true ∧ ∃ k : ℕ, rooms[k]? = some Room.gone := by
  cases h <;> cases hb
  case lose hroom => exact ⟨rfl, _, hroom⟩

lemma hasEnded_of_sent {x : ℕ × α} (h : Move closed rooms b inbox b' inbox' sent)
    (hsent : sent = some x) : b'.hasEnded = false := by
  cases h <;> cases hsent
  rfl

end Broadcaster.Move

/-! ### The failures of a pool -/

namespace Pool

variable {stage : Stage σ α β ε} {up closed : Bool} {down : Prop} {room : Room} {i : ℕ}
  {p p' : Pool σ α β ε} {sent : Option β} {f : Failure ε}

/-- One of the workers of a pool has ended with a failure. -/
def Failed (p : Pool σ α β ε) (f : Failure ε) : Prop :=
  .ended (.error f) ∈ p.workers

/-- A worker that has ended stays as it is, whichever worker has the turn. -/
lemma ended_mem_of_turn {result : Except (Failure ε) σ}
    (h : p.turn stage closed room i = some (p', sent)) (hmem : .ended result ∈ p.workers) :
    .ended result ∈ p'.workers := by
  obtain ⟨w, w', hw, hmove, hset⟩ := exists_move h
  have hne : w ≠ .ended result := by
    rintro rfl
    have := hmove.hasEnded_eq_false
    simp [Worker.hasEnded] at this
  obtain ⟨j, hj⟩ := List.mem_iff_getElem?.1 hmem
  have hij : i ≠ j := by
    rintro rfl
    exact hne (Option.some.inj (hw.symm.trans hj))
  rw [hset]
  exact List.mem_iff_getElem?.2 ⟨j, by rw [List.getElem?_set_ne hij, hj]⟩

/-- A failure that a turn adds has just happened, or it is an echo. -/
lemma failed_of_turn (h : p.turn stage closed room i = some (p', sent)) (hf : p'.Failed f) :
    p.Failed f ∨ p.failing? stage.name i = some f ∨ (f.isEcho = true ∧ room = .gone) := by
  obtain ⟨w, w', hw, hmove, hset⟩ := exists_move h
  rw [Failed, hset] at hf
  rcases List.mem_or_eq_of_mem_set hf with hmem | heq
  · exact .inl hmem
  · right
    refine (hmove.failing_or_echo heq.symm).imp_left fun hfail => ?_
    rw [failing?, hw, Option.bind_some, hfail]

lemma failed_of_failing? (h : p.turn stage closed room i = some (p', sent))
    (hf : p.failing? stage.name i = some f) : p'.Failed f := by
  obtain ⟨w, w', hw, hmove, hset⟩ := exists_move h
  have hlt : i < p.workers.length := (List.getElem?_eq_some_iff.1 hw).1
  rw [failing?, hw, Option.bind_some] at hf
  rw [Failed, hset, ← hmove.eq_of_failing? hf]
  exact List.mem_set hlt w'

/-- The failure that happens at a turn is no echo. -/
lemma isEcho_of_failing? {name : String} (hf : p.failing? name i = some f) :
    f.isEcho = false := by
  obtain ⟨w, -, hw⟩ := Option.bind_eq_some_iff.1 hf
  cases w with
  | waiting state => cases hw
  | ended result => cases hw
  | sending pending verdict =>
      cases pending with
      | cons item pending => cases hw
      | nil => cases verdict <;> cases hw <;> rfl

lemma failed_of_failure? (h : p.failure? = some f) : p.Failed f := by
  obtain ⟨w, hw, hf⟩ := List.exists_of_findSome?_eq_some h
  split at hf <;> cases hf
  exact hw

lemma exists_failure? (h : p.Failed f) : ∃ g, p.failure? = some g := by
  refine Option.ne_none_iff_exists'.1 fun hnone => ?_
  have := List.findSome?_eq_none_iff.1 hnone _ h
  cases this

/-! ### The links between stages -/

/-- How a pool hangs together with its neighbours: a worker has only ended well when those
before it had ended (`up`) and nothing was left, and it has only lost its consumer when one
of those after it had failed (`down`). -/
structure Linked (up : Bool) (down : Prop) (p : Pool σ α β ε) : Prop where
  nonempty : p.workers ≠ []
  drained : ∀ state, .ended (.ok state) ∈ p.workers → up = true ∧ p.inbox = []
  echo : ∀ f, p.Failed f → f.isEcho = true → down

namespace Linked

lemma start {n : ℕ} (hn : 1 ≤ n) (state : σ) (inbox : List α) :
    (Pool.start n state inbox : Pool σ α β ε).Linked up down where
  nonempty := by
    rw [Pool.start]
    simp only [ne_eq, List.replicate_eq_nil_iff]
    omega
  drained := by simp [Pool.start]
  echo := by simp [Pool.start, Failed]

lemma mono {up' : Bool} {down' : Prop} (h : p.Linked up down) (hup : up = true → up' = true)
    (hdown : down → down') : p.Linked up' down' where
  nonempty := h.nonempty
  drained := fun state hmem => ⟨hup (h.drained state hmem).1, (h.drained state hmem).2⟩
  echo := fun f hf hecho => hdown (h.echo f hf hecho)

/-- Links stay when something arrives, which is only before the senders have ended. -/
lemma receive (h : p.Linked up down) (hup : up = false) (item : Option α) :
    (p.receive item).Linked up down where
  nonempty := h.nonempty
  drained := fun state hmem => by
    have := (h.drained state hmem).1
    rw [hup] at this
    cases this
  echo := h.echo

/-- A turn of a pool keeps its links, if a consumer is only gone when one has failed. -/
lemma turn (h : p.Linked up down) (ht : p.turn stage up room i = some (p', sent))
    (hgone : room = .gone → down) : p'.Linked up down where
  nonempty := by
    have hlen := length_workers_of_turn ht
    have hpos := List.length_pos_iff.2 h.nonempty
    exact List.length_pos_iff.1 (by omega)
  drained := fun state hmem => by
    obtain ⟨w, w', hw, hmove, hset⟩ := exists_move ht
    rw [hset] at hmem
    rcases List.mem_or_eq_of_mem_set hmem with hold | hnew
    · obtain ⟨hup, hinbox⟩ := h.drained state hold
      exact ⟨hup, hmove.inbox_eq_nil hinbox⟩
    · exact hmove.closed_of_ok hnew.symm
  echo := fun f hf hecho => by
    rcases failed_of_turn ht hf with hold | hnew | ⟨-, hroom⟩
    · exact h.echo f hold hecho
    · rw [isEcho_of_failing? hnew] at hecho
      cases hecho
    · exact hgone hroom

/-- A pool that has ended has failed, or it has taken all that was to come. -/
lemma failed_or_drained (h : p.Linked up down) (hend : p.hasEnded = true) :
    (∃ f, p.Failed f) ∨ (up = true ∧ p.inbox = []) := by
  obtain ⟨w, hw⟩ := List.exists_mem_of_ne_nil _ h.nonempty
  obtain ⟨result, rfl⟩ := Worker.exists_eq_ended (List.all_eq_true.1 hend w hw)
  cases result with
  | error f => exact .inl ⟨f, hw⟩
  | ok state => exact .inr (h.drained state hw)

/-- A consumer that is gone before its senders have ended has failed. -/
lemma exists_failed_of_room {capacity : ℕ} (h : p.Linked up down) (hup : up = false)
    (hroom : p.room capacity = .gone) : ∃ f, p.Failed f := by
  rw [room, roomIn, Room.inQueue_eq_gone] at hroom
  refine (h.failed_or_drained hroom).resolve_right ?_
  rintro ⟨hended, -⟩
  rw [hup] at hended
  cases hended

lemma room_ne_gone {capacity : ℕ} (h : p.Linked up down) (hup : up = false)
    (hfailed : ∀ f, ¬p.Failed f) : p.room capacity ≠ .gone := by
  intro hroom
  obtain ⟨f, hf⟩ := h.exists_failed_of_room hup hroom
  exact hfailed f hf

/-- A pool without failed consumers, of which no genuine failure can be seen, has none. -/
lemma not_failed (h : p.Linked up down) (hdown : ¬down)
    (hecho : ∀ g, p.failure? = some g → g.isEcho = true) : ¬p.Failed f := by
  intro hf
  obtain ⟨g, hg⟩ := exists_failure? hf
  exact hdown (h.echo g (failed_of_failure? hg) (hecho g hg))

end Linked

end Pool

/-! ### The chain of stages -/

/-- The main thread adds up no more counts, although counters may still have some. -/
def Main.Refused : Main → Prop
  | aggregating _ => False
  | joining (.ok _) => False
  | joining (.error _) => True
  | returned _ => True

namespace State

/-- One of the threads of a pipeline has ended with a failure, or the main thread has
refused a count. -/
inductive Failed (s : State) (f : Failure Cause) : Prop
  | extract (h : s.extract.Failed f)
  | comments (h : s.comments.Failed f)
  | imports (h : s.imports.Failed f)
  | literals (h : s.literals.Failed f)
  | broadcaster (h : s.broadcaster = .ended (.error f))
  | counter (pool : Pool Unit SourceFile CallCount Cause) (hpool : pool ∈ s.counters)
      (h : pool.Failed f)
  | main (e : Cause) (hmain : s.main = .joining (.error e)) (hf : f = .cause e)

/-- The invariant of a pipeline: every stage is linked to its neighbours. -/
structure Chain (s : State) : Prop where
  extract : s.extract.Linked true (∃ f, s.comments.Failed f)
  comments : s.comments.Linked s.extract.hasEnded (∃ f, s.imports.Failed f)
  imports : s.imports.Linked s.comments.hasEnded (∃ f, s.literals.Failed f)
  literals : s.literals.Linked s.imports.hasEnded (∃ f, s.broadcaster = .ended (.error f))
  cleaned : ∀ n, s.broadcaster = .ended (.ok n) → s.literals.hasEnded = true ∧ s.cleaned = []
  broadcaster : ∀ f, s.broadcaster = .ended (.error f) → f.isEcho = true →
    ∃ pool ∈ s.counters, ∃ g, pool.Failed g
  counters : ∀ pool ∈ s.counters, pool.Linked s.broadcaster.hasEnded s.main.Refused
  counts : ∀ total, s.main = .joining (.ok total) → s.countersEnded = true ∧ s.counts = []

namespace Chain

variable {plan : Plan} {s t : State} {thread : Thread}

/-- The chain at the start. -/
lemma start {workers counterWorkers operators : ℕ} {tallies : List ℕ}
    {archives : List Archive.Reference} {total : Aggregate} (hw : 1 ≤ workers)
    (hc : 1 ≤ counterWorkers) :
    (State.start workers counterWorkers operators tallies archives total).Chain where
  extract := .start hw _ _
  comments := .start hw _ _
  imports := .start hw _ _
  literals := .start hw _ _
  cleaned := by simp [State.start]
  broadcaster := by simp [State.start]
  counters := fun pool hpool => by
    obtain rfl := List.eq_of_mem_replicate hpool
    exact .start hc _ _
  counts := by simp [State.start]

/-- A broadcaster that has ended has failed, or it has taken all that was to come. -/
lemma failed_or_drained (h : s.Chain) (hend : s.broadcaster.hasEnded = true) :
    (∃ f, s.broadcaster = .ended (.error f)) ∨
      ((∃ n, s.broadcaster = .ended (.ok n)) ∧ s.literals.hasEnded = true ∧ s.cleaned = []) := by
  obtain ⟨result, hresult⟩ := Broadcaster.exists_eq_ended hend
  cases result with
  | error f => exact .inl ⟨f, hresult⟩
  | ok n => exact .inr ⟨⟨n, hresult⟩, h.cleaned n hresult⟩

/-- A queue whose reader is the broadcaster is only given up when the broadcaster has
failed, as long as there are senders. -/
lemma exists_broadcaster_failed {capacity : ℕ} (h : s.Chain) (hup : s.literals.hasEnded = false)
    (hroom : s.broadcaster.room capacity s.cleaned.length = .gone) :
    ∃ f, s.broadcaster = .ended (.error f) := by
  rw [Broadcaster.room, Broadcaster.roomIn, Room.inQueue_eq_gone] at hroom
  refine (h.failed_or_drained hroom).resolve_right ?_
  rintro ⟨-, hended, -⟩
  rw [hup] at hended
  cases hended

/-- The chain after a turn of the broadcaster. -/
lemma move_broadcaster {b : Broadcaster SourceFile Cause} {cleaned : List SourceFile}
    {sent : Option (ℕ × SourceFile)} (h : s.Chain)
    (ht : s.broadcaster.turn s.literals.hasEnded (s.counters.map (Pool.room plan.capacity))
      s.cleaned = some (b, cleaned, sent)) :
    ({ s with
        broadcaster := b, cleaned := cleaned, counters := deliver s.counters sent } : State).Chain := by
  have hmove := Broadcaster.move_of_turn ht
  have hbend := hmove.hasEnded_eq_false
  have hcounters : ∀ pool ∈ deliver s.counters sent,
      pool.Linked b.hasEnded s.main.Refused := by
    intro pool hpool
    have hlinked : ∀ pool ∈ s.counters, pool.Linked b.hasEnded s.main.Refused :=
      fun pool hpool => (h.counters pool hpool).mono (by simp [hbend]) id
    obtain ⟨old, hold, rfl | ⟨k, file, hsent, rfl⟩⟩ := mem_deliver hpool
    · exact hlinked _ hold
    · exact (hlinked old hold).receive (hmove.hasEnded_of_sent hsent) _
  refine { h with
    literals := h.literals.mono id fun ⟨f, hf⟩ => ?_
    cleaned := fun n hn => ?_
    broadcaster := fun f hf hecho => ?_
    counters := hcounters
    counts := fun total hmain => ?_ }
  · rw [hf] at hbend
    cases hbend
  · exact hmove.closed_of_ok hn
  · obtain ⟨-, k, hroom⟩ := hmove.exists_gone hf
    rw [List.getElem?_map] at hroom
    obtain ⟨pool, hpool, hgone⟩ := Option.map_eq_some_iff.1 hroom
    have hmem := List.mem_of_getElem? hpool
    obtain ⟨g, hg⟩ := (h.counters pool hmem).exists_failed_of_room hbend hgone
    obtain ⟨new, hnew, hworkers⟩ := exists_mem_deliver sent hmem
    exact ⟨new, hnew, g, by rwa [Pool.Failed, hworkers]⟩
  · obtain ⟨hend, hcounts⟩ := h.counts total hmain
    refine ⟨?_, hcounts⟩
    rw [countersEnded, List.all_eq_true] at hend ⊢
    intro pool hpool
    obtain ⟨old, hold, rfl | ⟨k, file, -, rfl⟩⟩ := mem_deliver hpool
    · exact hend _ hold
    · exact hend old hold

/-- The main thread has not added all counts while there are counters. -/
lemma main_ne_joining_ok {pool : Pool Unit SourceFile CallCount Cause} (h : s.Chain)
    (hpool : pool ∈ s.counters) (hend : pool.hasEnded = false) (total : Aggregate) :
    s.main ≠ .joining (.ok total) := by
  intro hmain
  have hended := (h.counts total hmain).1
  rw [countersEnded, List.all_eq_true] at hended
  have := hended pool hpool
  rw [hend] at this
  cases this

/-- The queue of the main thread is only given up when a count was refused, as long as there
are counters. -/
lemma refused_of_room {pool : Pool Unit SourceFile CallCount Cause} {capacity : ℕ}
    (h : s.Chain) (hpool : pool ∈ s.counters) (hend : pool.hasEnded = false)
    (hroom : s.main.room capacity s.counts.length = .gone) : s.main.Refused := by
  rw [Main.room, Main.roomIn, Room.inQueue_eq_gone] at hroom
  cases hmain : s.main with
  | aggregating total => simp [hmain, Main.isAggregating] at hroom
  | joining total =>
      cases total with
      | ok total => exact absurd hmain (h.main_ne_joining_ok hpool hend total)
      | error e => trivial
  | returned result => trivial

/-- The chain after a turn of a counter. -/
lemma move_counter {k i : ℕ} {stage : Stage Unit SourceFile CallCount Cause}
    {pool pool' : Pool Unit SourceFile CallCount Cause} {sent : Option CallCount} (h : s.Chain)
    (hpool : s.counters[k]? = some pool)
    (ht : pool.turn stage s.broadcaster.hasEnded (s.main.room plan.capacity s.counts.length) i
      = some (pool', sent)) :
    ({ s with
        counters := s.counters.set k pool', counts := s.counts ++ sent.toList } : State).Chain := by
  have hmem := List.mem_of_getElem? hpool
  have hpend := Pool.hasEnded_eq_false_of_turn ht
  refine { h with
    broadcaster := fun f hf hecho => ?_
    counters := fun p hp => ?_
    counts := fun total hmain => absurd hmain (h.main_ne_joining_ok hmem hpend total) }
  · obtain ⟨p, hp, hfailed⟩ := h.broadcaster f hf hecho
    have hstays : (∃ g, pool.Failed g) → ∃ g, pool'.Failed g :=
      fun ⟨g, hg⟩ => ⟨g, Pool.ended_mem_of_turn ht hg⟩
    exact exists_mem_set hpool hstays hp hfailed
  · rcases List.mem_or_eq_of_mem_set hp with hold | rfl
    · exact h.counters p hold
    · exact (h.counters pool hmem).turn ht (h.refused_of_room hmem hpend)

/-- Every turn keeps the chain. -/
lemma move (h : s.Chain) (hmove : Move plan s thread t) : t.Chain := by
  cases hmove with
  | extract i ht =>
      have hup := Pool.hasEnded_eq_false_of_turn ht
      exact { h with
        extract := h.extract.turn ht (h.comments.exists_failed_of_room hup)
        comments := (h.comments.receive hup _).mono (by simp [hup]) id }
  | comments i ht =>
      have hup := Pool.hasEnded_eq_false_of_turn ht
      exact { h with
        extract := h.extract.mono id fun ⟨f, hf⟩ => ⟨f, Pool.ended_mem_of_turn ht hf⟩
        comments := h.comments.turn ht (h.imports.exists_failed_of_room hup)
        imports := (h.imports.receive hup _).mono (by simp [hup]) id }
  | imports i ht =>
      have hup := Pool.hasEnded_eq_false_of_turn ht
      exact { h with
        comments := h.comments.mono id fun ⟨f, hf⟩ => ⟨f, Pool.ended_mem_of_turn ht hf⟩
        imports := h.imports.turn ht (h.literals.exists_failed_of_room hup)
        literals := (h.literals.receive hup _).mono (by simp [hup]) id }
  | literals i ht =>
      have hup := Pool.hasEnded_eq_false_of_turn ht
      exact { h with
        imports := h.imports.mono id fun ⟨f, hf⟩ => ⟨f, Pool.ended_mem_of_turn ht hf⟩
        literals := h.literals.turn ht (h.exists_broadcaster_failed hup)
        cleaned := fun n hn => by
          have := (h.cleaned n hn).1
          rw [hup] at this
          cases this }
  | broadcaster ht => exact h.move_broadcaster ht
  | counter k i hstage hpool ht => exact h.move_counter hpool ht
  | add hmain hcounts hadd =>
      exact { h with
        counters := fun pool hpool => (h.counters pool hpool).mono id (by simp [hmain, Main.Refused])
        counts := fun total htotal => by cases htotal }
  | refuse hmain hcounts hadd =>
      exact { h with
        counters := fun pool hpool => (h.counters pool hpool).mono id fun _ => trivial
        counts := fun total htotal => by cases htotal }
  | drain hmain hcounts hended =>
      exact { h with
        counters := fun pool hpool => (h.counters pool hpool).mono id (by simp [hmain, Main.Refused])
        counts := fun total htotal => ⟨hended, hcounts⟩ }
  | finish hmain hended =>
      exact { h with
        counters := fun pool hpool => (h.counters pool hpool).mono id fun _ => trivial
        counts := fun total htotal => by cases htotal }

lemma panic (h : s.Chain) (hend : s.broadcaster.hasEnded = false) :
    ({ s with broadcaster := .ended (.error (.panicked Broadcaster.name)) } : State).Chain :=
  { h with
    literals := h.literals.mono id fun _ => ⟨_, rfl⟩
    cleaned := fun n hn => by cases hn
    broadcaster := fun f hf hecho => by cases hf; cases hecho
    counters := fun pool hpool => (h.counters pool hpool).mono (by simp [hend]) id }

/-- **Where only echoes are found, nothing has failed.** A stage of which only echoes can be
seen has lost its consumer, hence the next stage has failed, and so on to the last. -/
lemma not_failed_of_echoes (h : s.Chain) {total : Aggregate} (hrefused : ¬s.main.Refused)
    (hecho : ∀ g ∈ s.failures (.ok total), g.isEcho = true) (f : Failure Cause) :
    ¬s.Failed f := by
  have hcounters : ∀ pool ∈ s.counters, ∀ f, ¬pool.Failed f := fun pool hpool f =>
    (h.counters pool hpool).not_failed hrefused fun g hg =>
      hecho g (by simp only [failures, List.mem_append, List.mem_filterMap]
                  exact .inr (.inr ⟨pool, hpool, hg⟩))
  have hbroadcaster : ∀ f, s.broadcaster ≠ .ended (.error f) := by
    intro f hf
    have hmem : f ∈ s.failures (.ok total) := by simp [failures, broadcastFailure?, hf]
    obtain ⟨pool, hpool, g, hg⟩ := h.broadcaster f hf (hecho f hmem)
    exact hcounters pool hpool g hg
  have hliterals : ∀ f, ¬s.literals.Failed f := fun f =>
    h.literals.not_failed (fun ⟨g, hg⟩ => hbroadcaster g hg) fun g hg =>
      hecho g (by simp [failures, hg])
  have himports : ∀ f, ¬s.imports.Failed f := fun f =>
    h.imports.not_failed (fun ⟨g, hg⟩ => hliterals g hg) fun g hg =>
      hecho g (by simp [failures, hg])
  have hcomments : ∀ f, ¬s.comments.Failed f := fun f =>
    h.comments.not_failed (fun ⟨g, hg⟩ => himports g hg) fun g hg =>
      hecho g (by simp [failures, hg])
  have hextract : ¬s.extract.Failed f :=
    h.extract.not_failed (fun ⟨g, hg⟩ => hcomments g hg) fun g hg =>
      hecho g (by simp [failures, hg])
  intro hf
  cases hf with
  | extract hf => exact hextract hf
  | comments hf => exact hcomments f hf
  | imports hf => exact himports f hf
  | literals hf => exact hliterals f hf
  | broadcaster hf => exact hbroadcaster f hf
  | counter pool hpool hf => exact hcounters pool hpool f hf
  | main e hmain hf => exact hrefused (by rw [hmain]; trivial)

end Chain

end State

end CallCensus.Pipeline
