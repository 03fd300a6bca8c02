import CallCensus.Proofs.Pipeline.Chain
import CallCensus.Proofs.Pipeline.Progress
import CallCensus.Proofs.Pool.Calls
import Mathlib.Algebra.BigOperators.Fin
import Mathlib.Algebra.Order.Group.Multiset

/-!
How the workers of a pool share its items.

Items come into the queue of a pool one after the other, and whichever worker has a turn takes
the next. A log says who took and who sent what. However the turns fall, the items that were
taken, those in the queue and those still to come are the items, in order, so that none is taken
twice or lost; and every worker is where the items put it that it has taken. Since a worker only
ends well on an empty queue to which nothing will be added, items are left only if all have
failed.

* `ofWorker`: what of a log belongs to one worker;
* `Shift`, `Shift.Step`: a pool at work, and how it goes on;
* `Shift.Sound`: the invariant, kept by `Shift.Sound.queue` and `Shift.Sound.turn`;
* `Shift.CameTo`, `Shift.Completed`: what holds when all workers have ended;
* `Shift.shares_items`: all executions.
-/

namespace CallCensus.Pipeline

variable {σ α β γ ε : Type}

/-! ### Logs -/

/-- What of a log of all workers belongs to the worker `i`, in order. -/
def ofWorker (i : ℕ) (log : List (ℕ × γ)) : List γ :=
  (log.filter fun e => e.1 = i).map Prod.snd

lemma ofWorker_append_self (i : ℕ) (log : List (ℕ × γ)) (new : List γ) :
    ofWorker i (log ++ new.map (i, ·)) = ofWorker i log ++ new := by
  simp [ofWorker, List.filter_map, Function.comp_def]

lemma ofWorker_append_of_ne {i j : ℕ} (h : i ≠ j) (log : List (ℕ × γ)) (new : List γ) :
    ofWorker j (log ++ new.map (i, ·)) = ofWorker j log := by
  simp [ofWorker, List.filter_map, Function.comp_def, h]

/-- A log of the first `n` workers is, but for the order, what belongs to each of them. -/
lemma coe_map_snd_eq_sum {n : ℕ} {log : List (ℕ × γ)} (h : ∀ e ∈ log, e.1 < n) :
    (↑(log.map Prod.snd) : Multiset γ) = ∑ i : Fin n, ↑(ofWorker i log) := by
  induction log with
  | nil => simp [ofWorker]
  | cons e log ih =>
      obtain ⟨he, hlog⟩ := List.forall_mem_cons.1 h
      have hcons : ∀ i : Fin n, (↑(ofWorker i (e :: log)) : Multiset γ) =
          (if i = ⟨e.1, he⟩ then {e.2} else 0) + ↑(ofWorker i log) := by
        intro i
        by_cases hi : i = ⟨e.1, he⟩
        · subst hi
          simp [ofWorker]
        · have hne : e.1 ≠ i := fun heq => hi (Fin.ext heq.symm)
          simp [ofWorker, hi, hne]
      rw [Finset.sum_congr rfl fun i _ => hcons i, Finset.sum_add_distrib, ← ih hlog]
      simp

lemma coe_flatten_ofFn {n : ℕ} (f : Fin n → List γ) :
    (↑(List.ofFn f).flatten : Multiset γ) = ∑ i, ↑(f i) := by
  rw [← Multiset.coe_join, Multiset.join, Multiset.sum_coe, List.map_ofFn, List.sum_ofFn]
  rfl

/-! ### A pool at work -/

/-- A pool at work: the items that are still to come, the pool, and which worker took and which
sent what so far. -/
structure Shift (σ α β ε : Type) where
  coming : List α
  pool : Pool σ α β ε
  taken : List (ℕ × α)
  sent : List (ℕ × β)

namespace Shift

/-- The start: every worker waits, each in its own state. -/
def start (states : List σ) (items : List α) : Shift σ α β ε :=
  ⟨items, ⟨[], states.map .waiting⟩, [], []⟩

/-- The items that no worker has taken. -/
def untaken (s : Shift σ α β ε) : List α :=
  s.pool.inbox ++ s.coming

/-- The shift after a turn of the worker `i` that leaves the given pool. -/
def after (s : Shift σ α β ε) (i : ℕ) (pool : Pool σ α β ε) (out : Option β) : Shift σ α β ε where
  coming := s.coming
  pool := pool
  taken := s.taken ++ (Worker.takenFrom s.pool.inbox pool.inbox).map (i, ·)
  sent := s.sent ++ out.toList.map (i, ·)

/-- How a shift can go on. The queue keeps as many items as its `capacity`, and may be closed
once nothing is to come. The room for what is sent is up to the consumer, who stays unless
`deserted` says that nobody may be left. -/
inductive Step (stage : Stage σ α β ε) (capacity : ℕ) (deserted : Bool) (s : Shift σ α β ε) :
    Shift σ α β ε → Prop
  /-- An item comes into the queue. -/
  | queue (item : α) (coming : List α) (hcoming : s.coming = item :: coming)
      (hroom : s.pool.room capacity = .free) :
      Step stage capacity deserted s
        { s with coming := coming, pool := s.pool.receive (some item) }
  /-- A worker has a turn. -/
  | turn (closed : Bool) (room : Room) (i : ℕ) (pool : Pool σ α β ε) (out : Option β)
      (hclosed : closed = true → s.coming = []) (hgone : room = .gone → deserted = true)
      (hturn : s.pool.turn stage closed room i = some (pool, out)) :
      Step stage capacity deserted s (s.after i pool out)

/-! ### The invariant -/

/-- What holds of a shift that started with the given states and items. -/
structure Sound (stage : Stage σ α β ε) (deserted : Bool) (states : List σ) (items : List α)
    (s : Shift σ α β ε) : Prop where
  /-- Every item was taken once or is still to be taken. -/
  once : s.taken.map Prod.snd ++ s.untaken = items
  workers : s.pool.workers.length = states.length
  takers : ∀ e ∈ s.taken, e.1 < states.length
  senders : ∀ e ∈ s.sent, e.1 < states.length
  /-- Every item that was taken was processed. -/
  processed : ∀ i state, states[i]? = some state →
    (stage.calls state (ofWorker i s.taken)).1.length = (ofWorker i s.taken).length
  worked : ∀ i state w, states[i]? = some state → s.pool.workers[i]? = some w →
    Worker.Worked stage deserted state (ofWorker i s.taken) (ofWorker i s.sent) w
  /-- A worker only ends well when no item is left. -/
  drained : ∀ state, .ended (.ok state) ∈ s.pool.workers → s.untaken = []

namespace Sound

variable {stage : Stage σ α β ε} {capacity : ℕ} {deserted : Bool} {states : List σ}
  {items : List α} {s t : Shift σ α β ε}

/-- The invariant at the start. -/
lemma start : Sound stage deserted states items (Shift.start states items) where
  once := rfl
  workers := by simp [Shift.start]
  takers := by simp [Shift.start]
  senders := by simp [Shift.start]
  processed := fun i state _ => rfl
  worked := fun i state w hstate hw => by
    rw [Shift.start, List.getElem?_map, hstate, Option.map_some, Option.some_inj] at hw
    subst hw
    exact .waiting state rfl rfl
  drained := by simp [Shift.start]

/-- Nothing is lost when an item comes into the queue. -/
lemma queue (h : Sound stage deserted states items s) {item : α} {coming : List α}
    (hcoming : s.coming = item :: coming) :
    Sound stage deserted states items
      { s with coming := coming, pool := s.pool.receive (some item) } := by
  have huntaken : ({ s with coming := coming, pool := s.pool.receive (some item) } :
      Shift σ α β ε).untaken = s.untaken := by
    simp [untaken, hcoming]
  exact { h with
    once := by rw [huntaken, h.once]
    drained := fun state hstate => by rw [huntaken, h.drained state hstate] }

/-- A turn of a worker concerns what this worker has taken and sent, and no other. -/
lemma turn (h : Sound stage deserted states items s) {closed : Bool} {room : Room} {i : ℕ}
    {pool : Pool σ α β ε} {out : Option β} (hclosed : closed = true → s.coming = [])
    (hgone : room = .gone → deserted = true)
    (hturn : s.pool.turn stage closed room i = some (pool, out)) :
    Sound stage deserted states items (s.after i pool out) := by
  obtain ⟨w, w', hw, hmove, hset⟩ := Pool.exists_move hturn
  have hi : i < states.length := h.workers ▸ (List.getElem?_eq_some_iff.1 hw).1
  constructor
  case once =>
    have hnew : ((Worker.takenFrom s.pool.inbox pool.inbox).map (i, ·)).map Prod.snd =
        Worker.takenFrom s.pool.inbox pool.inbox := by simp [Function.comp_def]
    rw [after, untaken, List.map_append, hnew, List.append_assoc,
      ← List.append_assoc _ pool.inbox, hmove.takenFrom_append]
    exact h.once
  case workers => rw [after, hset, List.length_set, h.workers]
  case takers =>
    intro e he
    rcases List.mem_append.1 he with he | he
    · exact h.takers e he
    · obtain ⟨item, -, rfl⟩ := List.mem_map.1 he
      exact hi
  case senders =>
    intro e he
    rcases List.mem_append.1 he with he | he
    · exact h.senders e he
    · obtain ⟨item, -, rfl⟩ := List.mem_map.1 he
      exact hi
  case processed =>
    intro j state hstate
    by_cases hij : i = j
    · subst hij
      rw [after, ofWorker_append_self]
      exact (h.worked i state w hstate hw).length_calls (h.processed i state hstate) hmove
    · rw [after, ofWorker_append_of_ne hij]
      exact h.processed j state hstate
  case worked =>
    intro j state v hstate hv
    by_cases hij : i = j
    · subst hij
      rw [after, hset, List.getElem?_set_self (h.workers ▸ hi), Option.some_inj] at hv
      subst hv
      rw [after, ofWorker_append_self, ofWorker_append_self]
      exact (h.worked i state w hstate hw).move hmove hgone
    · rw [after, hset, List.getElem?_set_ne hij] at hv
      rw [after, ofWorker_append_of_ne hij, ofWorker_append_of_ne hij]
      exact h.worked j state v hstate hv
  case drained =>
    intro state hstate
    rw [after, hset] at hstate
    rw [untaken, after]
    rcases List.mem_or_eq_of_mem_set hstate with hold | hnew
    · have hnone := h.drained state hold
      rw [untaken, List.append_eq_nil_iff] at hnone
      rw [hmove.inbox_eq_nil hnone.1, hnone.2, List.append_nil]
    · obtain ⟨hup, hinbox⟩ := hmove.closed_of_ok hnew.symm
      rw [hinbox, hclosed hup, List.append_nil]

/-- The invariant holds of every shift that is reached. -/
lemma of_reachable
    (h : Relation.ReflTransGen (Step stage capacity deserted) (Shift.start states items) s) :
    Sound stage deserted states items s := by
  induction h with
  | refl => exact .start
  | tail _ hstep ih =>
      cases hstep with
      | queue item coming hcoming hroom => exact ih.queue hcoming
      | turn closed room i pool out hclosed hgone hturn => exact ih.turn hclosed hgone hturn

end Sound

/-! ### Progress and termination -/

section Progress

variable {stage : Stage σ α β ε} {capacity : ℕ} {deserted : Bool} {s t : Shift σ α β ε}

/-- As long as a worker has not ended the shift can go on, if its consumer has room. -/
lemma exists_step (h : s.pool.hasEnded = false) : ∃ t, Step stage capacity deserted s t := by
  by_contra hstuck
  have hturn : ∀ i, s.pool.turn stage s.coming.isEmpty .free i = none := by
    intro i
    refine Option.eq_none_iff_forall_ne_some.2 fun ⟨pool, out⟩ hturn => ?_
    exact hstuck ⟨s.after i pool out, .turn _ .free i pool out List.isEmpty_iff.1
      (fun hgone => nomatch hgone) hturn⟩
  rcases Pool.ended_or_waits (by simp) hturn with hend | ⟨hcoming, hwaits⟩
  · simp [h] at hend
  · -- all workers that have not ended wait, so there is room for an item that is still to come
    obtain ⟨item, coming, hcons⟩ := List.exists_cons_of_ne_nil
      (fun hnil : s.coming = [] => by simp [hnil] at hcoming)
    have hfull := Pool.room_ne_full capacity (.inr hwaits)
    have hgone : s.pool.room capacity ≠ .gone := by
      rw [Pool.room, Pool.roomIn, ne_eq, Room.inQueue_eq_gone, h]
      exact Bool.false_ne_true
    cases hroom : s.pool.room capacity with
    | free => exact hstuck ⟨_, .queue item coming hcons hroom⟩
    | full => exact hfull hroom
    | gone => exact hgone hroom

/-- The well-founded relation that every step goes down. -/
abbrev Lower : WellFoundedRelation (ℕ × ℕ × ℕ) :=
  inferInstance

/-- The number of items still to come, and the load of the pool. -/
def measure (s : Shift σ α β ε) : ℕ × ℕ × ℕ :=
  (s.coming.length, s.pool.load)

/-- Every step brings an item into the queue, or lowers the load of the pool. -/
lemma Step.decreases (h : Step stage capacity deserted s t) :
    Lower.rel t.measure s.measure := by
  cases h with
  | queue item coming hcoming hroom =>
      have hlt : coming.length < s.coming.length := by simp [hcoming]
      exact .left _ _ hlt
  | turn closed room i pool out hclosed hgone hturn =>
      exact .right _ (Pool.turn_decreases hturn)

/-- No shift goes on for ever. -/
lemma not_exists_infinite :
    ¬∃ run : ℕ → Shift σ α β ε, ∀ n, Step stage capacity deserted (run n) (run (n + 1)) := by
  rintro ⟨run, hrun⟩
  exact (wellFounded_iff_isEmpty_descending_chain.1 Lower.wf).false
    ⟨fun n => (run n).measure, fun n => (hrun n).decreases⟩

end Progress

/-! ### The end -/

/-- Workers that have all ended have come to something. -/
lemma exists_eq_map_ended {workers : List (Worker σ β ε)}
    (h : ∀ w ∈ workers, w.hasEnded = true) :
    ∃ results : List (Except (Failure ε) σ), workers = results.map .ended := by
  induction workers with
  | nil => exact ⟨[], rfl⟩
  | cons w workers ih =>
      obtain ⟨hw, hworkers⟩ := List.forall_mem_cons.1 h
      obtain ⟨result, rfl⟩ := Worker.exists_eq_ended hw
      obtain ⟨results, rfl⟩ := ih hworkers
      exact ⟨result :: results, rfl⟩

/-- What a pool of workers that have all ended comes to: the last states of all of them, in
their order, or else the failure of the first that has failed. -/
lemma join_eq_mapM (inbox : List α) (results : List (Except (Failure ε) σ)) :
    (⟨inbox, results.map .ended⟩ : Pool σ α β ε).join = results.mapM id := by
  induction results with
  | nil => rfl
  | cons result results ih =>
      rw [List.mapM_cons, ← ih]
      cases result with
      | error failure => rfl
      | ok state =>
          have hfailure : (⟨inbox, (Except.ok state :: results).map .ended⟩ :
              Pool σ α β ε).failure? = (⟨inbox, results.map .ended⟩ : Pool σ α β ε).failure? := rfl
          rw [Pool.join, Pool.join, hfailure]
          cases (⟨inbox, results.map .ended⟩ : Pool σ α β ε).failure? <;> rfl

/-- What the worker `i`, which started in the given state, has sent and come to in the end: all
that its calls emitted, in order, and what they come to, unless nobody was left to send to. -/
def CameTo (stage : Stage σ α β ε) (deserted : Bool) (s : Shift σ α β ε) (i : ℕ) (state : σ)
    (result : Except (Failure ε) σ) : Prop :=
  ofWorker i s.sent = stage.emitted state (ofWorker i s.taken) ∧
      result = stage.result state (ofWorker i s.taken) ∨
    deserted = true ∧ ofWorker i s.sent <+: stage.emitted state (ofWorker i s.taken) ∧
      result = .error (.disconnected stage.name)

/-- What holds of a shift when all workers have ended. -/
structure Completed (stage : Stage σ α β ε) (deserted : Bool) (states : List σ)
    (s : Shift σ α β ε) : Prop where
  /-- An item is only left if every worker has failed. -/
  left : s.untaken ≠ [] → ∀ w ∈ s.pool.workers, ∃ failure, w = .ended (.error failure)
  /-- A worker takes an item only when all its calls before have ended well. -/
  stops : ∀ i state before item rest, states[i]? = some state →
    ofWorker i s.taken = before ++ item :: rest →
      ∃ next, (stage.calls state before).2 = .done next
  /-- Every worker has come to something, and the pool comes to the last states of all workers, or
  else to the first failure, in the order of the workers. -/
  results : ∃ results : List (Except (Failure ε) σ),
    s.pool.workers = results.map .ended ∧ s.pool.join = results.mapM id ∧
      ∀ i state result, states[i]? = some state → results[i]? = some result →
        s.CameTo stage deserted i state result
  /-- All that is sent is, but for the order, what the calls of all workers emitted. -/
  outputs : deserted = false → (↑(s.sent.map Prod.snd) : Multiset β) =
    ∑ i : Fin states.length, ↑(stage.emitted states[i] (ofWorker i s.taken))
  /-- What the pool comes to is a matter of the items that each worker has taken. -/
  join : deserted = false → s.pool.join =
    (states.mapIdx fun i state => stage.result state (ofWorker i s.taken)).mapM id

section Completed

variable {stage : Stage σ α β ε} {deserted : Bool} {states : List σ} {items : List α}
  {s : Shift σ α β ε}

/-- Where the consumer stays, a worker has sent and come to what its calls say. -/
lemma CameTo.of_stays {i : ℕ} {state : σ} {result : Except (Failure ε) σ}
    (h : s.CameTo stage deserted i state result) (hstays : deserted = false) :
    ofWorker i s.sent = stage.emitted state (ofWorker i s.taken) ∧
      result = stage.result state (ofWorker i s.taken) := by
  refine h.resolve_right fun hlost => ?_
  rw [hstays] at hlost
  exact Bool.false_ne_true hlost.1

/-- A worker that has ended has come to what its calls come to, or has lost its consumer. -/
lemma Sound.cameTo (h : Sound stage deserted states items s) {i : ℕ} {state : σ}
    (hstate : states[i]? = some state) {result : Except (Failure ε) σ}
    (hw : s.pool.workers[i]? = some (.ended result)) : s.CameTo stage deserted i state result := by
  cases h.worked i state _ hstate hw with
  | ended hgave => exact .inl ⟨hgave, rfl⟩
  | lost hdeserted hgave => exact .inr ⟨hdeserted, hgave, rfl⟩

/-- A shift is completed when all workers have ended. -/
lemma Sound.completed (h : Sound stage deserted states items s) (hend : s.pool.hasEnded = true) :
    Completed stage deserted states s := by
  obtain ⟨results, hresults⟩ := exists_eq_map_ended (List.all_eq_true.1 hend)
  have hjoin : s.pool.join = results.mapM id := by
    rw [← join_eq_mapM s.pool.inbox results, ← hresults]
  have hlength : results.length = states.length := by
    rw [← h.workers, hresults, List.length_map]
  have hcame : ∀ i state result, states[i]? = some state → results[i]? = some result →
      s.CameTo stage deserted i state result := fun i state result hstate hi =>
    h.cameTo hstate (by rw [hresults, List.getElem?_map, hi, Option.map_some])
  have hcame' : ∀ i (hi : i < states.length) (hi' : i < results.length),
      s.CameTo stage deserted i states[i] results[i] := fun i hi hi' =>
    hcame i _ _ (List.getElem?_eq_getElem hi) (List.getElem?_eq_getElem hi')
  constructor
  case left =>
    intro hleft w hw
    obtain ⟨result, rfl⟩ := Worker.exists_eq_ended (List.all_eq_true.1 hend w hw)
    cases result with
    | ok state => exact absurd (h.drained state hw) hleft
    | error failure => exact ⟨failure, rfl⟩
  case stops =>
    intro i state before item rest hstate htaken
    have hprocessed := h.processed i state hstate
    rw [htaken] at hprocessed
    exact Stage.exists_done_of_length_calls hprocessed
  case results => exact ⟨results, hresults, hjoin, hcame⟩
  case outputs =>
    intro hstays
    rw [coe_map_snd_eq_sum h.senders]
    refine Finset.sum_congr rfl fun i _ => ?_
    rw [((hcame' i i.isLt (hlength.symm ▸ i.isLt)).of_stays hstays).1]
    rfl
  case join =>
    intro hstays
    have heq : results = states.mapIdx fun i state => stage.result state (ofWorker i s.taken) := by
      refine List.ext_getElem (by rw [hlength, List.length_mapIdx]) fun i hi _ => ?_
      rw [((hcame' i (hlength ▸ hi) hi).of_stays hstays).2, List.getElem_mapIdx]
    rw [hjoin, heq]

/-- A single worker that is given a single item, and whose consumer stays, sends what the call for
the item emits, and comes to what the call comes to. -/
lemma sent_and_join_of_single {capacity : ℕ} {state : σ} {item : α}
    (hreach : Relation.ReflTransGen (Step stage capacity false) (start [state] [item]) s)
    (hend : s.pool.hasEnded = true) :
    s.sent.map Prod.snd = (stage.process state item).1 ∧
      s.pool.join = [(stage.process state item).2.result stage.name].mapM id := by
  have hsound := Sound.of_reachable hreach
  have hdone := hsound.completed hend
  have halone : ∀ {γ : Type} {log : List (ℕ × γ)}, (∀ e ∈ log, e.1 < 1) →
      ofWorker 0 log = log.map Prod.snd := by
    intro γ log hlog
    rw [ofWorker, List.filter_eq_self.2 fun e he => by simpa using hlog e he]
  obtain ⟨results, hworkers, -, hcame⟩ := hdone.results
  obtain ⟨result, rfl⟩ : ∃ result, results = [result] := by
    rw [← List.length_eq_one_iff, ← List.length_map (f := Worker.ended), ← hworkers,
      hsound.workers]
    rfl
  obtain ⟨hsent, hresult⟩ := (hcame 0 state result rfl rfl).of_stays rfl
  rw [halone hsound.takers] at hsent hresult
  have htaken : s.taken.map Prod.snd = [item] := by
    rcases List.append_eq_singleton_iff.1 hsound.once with ⟨hnone, huntaken⟩ | ⟨hitem, -⟩
    · -- a worker that has taken nothing ends well, so nothing is left to be taken
      rw [hnone] at hresult
      rw [hsound.drained state (by rw [hworkers, hresult]; exact List.mem_cons_self)] at huntaken
      cases huntaken
    · exact hitem
  have hcalls : stage.calls state [item] =
      ([(stage.process state item).1], (stage.process state item).2) :=
    (Stage.calls_concat rfl item : stage.calls state ([] ++ [item]) = ([] ++ [_], _))
  constructor
  · rw [← halone hsound.senders, hsent, htaken, Stage.emitted, hcalls, List.flatten_singleton]
  · rw [hdone.join rfl, List.mapIdx_cons, List.mapIdx_nil, halone hsound.takers, htaken,
      Stage.result, hcalls]

end Completed

/-- **A pool processes every item once.** Whatever its stage and the states in which its workers
start, and however the turns of the workers, the coming of the items and the room at the consumer
fall: at every point the items that were taken, each by one worker, and those that were not are
all items, in order. As long as a worker has not ended the pool can go on, but it never goes on
for ever, and when all workers have ended it has completed its items. -/
theorem shares_items (stage : Stage σ α β ε) (capacity : ℕ) (deserted : Bool) (states : List σ)
    (items : List α) :
    (∀ s, Relation.ReflTransGen (Step stage capacity deserted) (start states items) s →
      (s.taken.map Prod.snd ++ s.untaken = items ∧ ∀ e ∈ s.taken, e.1 < states.length) ∧
      (s.pool.hasEnded = false → ∃ t, Step stage capacity deserted s t) ∧
      (s.pool.hasEnded = true → Completed stage deserted states s)) ∧
    ¬∃ run : ℕ → Shift σ α β ε, ∀ n, Step stage capacity deserted (run n) (run (n + 1)) := by
  refine ⟨fun s hreach => ?_, not_exists_infinite⟩
  have hsound := Sound.of_reachable hreach
  exact ⟨⟨hsound.once, hsound.takers⟩, exists_step, hsound.completed⟩

end Shift

end CallCensus.Pipeline
