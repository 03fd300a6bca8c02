import CallCensus.Pipeline.State
import Mathlib.Tactic.Common

/-!
What a turn can do, said once.

The turns of workers, of the broadcaster and of a whole pipeline are functions; here every
way in which one of them can go is a constructor of a relation, so that later proofs are by
cases on the relation and never open the functions.

* `Worker.Move`, `Broadcaster.Move`: the ways of a single thread, with `move_of_turn`;
* `Pool.exists_move`: a turn of a pool is a move of one of its workers;
* `State.Move`: the ways of a pipeline, with `State.move_of_turn` and its converse
  `State.turn_of_move`.
-/

namespace CallCensus.Pipeline

variable {σ α β ε : Type}

/-! ### Workers -/

namespace Worker

/-- The ways in which a worker, the items queued for it, and the item that it sends can
change in one turn. -/
inductive Move (stage : Stage σ α β ε) (closed : Bool) (room : Room) :
    Worker σ β ε → List α → Worker σ β ε → List α → Option β → Prop
  /-- It takes an item and processes it. -/
  | take (state : σ) (item : α) (rest : List α) :
      Move stage closed room (waiting state) (item :: rest)
        (sending (stage.process state item).1 (stage.process state item).2) rest none
  /-- It ends, because no item will come. -/
  | finish (state : σ) (hclosed : closed = true) :
      Move stage closed room (waiting state) [] (ended (.ok state)) [] none
  /-- It sends an item. -/
  | send (item : β) (pending : List β) (verdict : Verdict σ ε) (inbox : List α)
      (hroom : room = .free) :
      Move stage closed room (sending (item :: pending) verdict) inbox
        (sending pending verdict) inbox (some item)
  /-- It ends, because nobody takes what it has to send. -/
  | lose (item : β) (pending : List β) (verdict : Verdict σ ε) (inbox : List α)
      (hroom : room = .gone) :
      Move stage closed room (sending (item :: pending) verdict) inbox
        (ended (.error (.disconnected stage.name))) inbox none
  /-- It has sent everything and goes on. -/
  | goOn (state : σ) (inbox : List α) :
      Move stage closed room (sending [] (.done state)) inbox (waiting state) inbox none
  /-- It has sent everything and fails. -/
  | fail (e : ε) (inbox : List α) :
      Move stage closed room (sending [] (.failed e)) inbox
        (ended (.error (.cause e))) inbox none
  /-- It has sent everything and panics. -/
  | panic (inbox : List α) :
      Move stage closed room (sending [] .panicked) inbox
        (ended (.error (.panicked stage.name))) inbox none

variable {stage : Stage σ α β ε} {closed : Bool} {room : Room} {w w' : Worker σ β ε}
  {inbox inbox' : List α} {sent : Option β}

/-- Every turn of a worker is one of its moves. -/
lemma move_of_turn (h : w.turn stage closed room inbox = some (w', inbox', sent)) :
    Move stage closed room w inbox w' inbox' sent := by
  cases w with
  | waiting state =>
      cases inbox with
      | cons item rest =>
          simp only [turn, Option.some.injEq, Prod.mk.injEq] at h
          obtain ⟨rfl, rfl, rfl⟩ := h
          exact .take state item _
      | nil =>
          rw [turn] at h
          split_ifs at h with hclosed
          cases h
          exact .finish state hclosed
  | sending pending verdict =>
      cases pending with
      | cons item pending =>
          cases room <;> simp only [turn, reduceCtorEq, Option.some.injEq, Prod.mk.injEq] at h
          · obtain ⟨rfl, rfl, rfl⟩ := h
            exact .send item pending verdict _ rfl
          · obtain ⟨rfl, rfl, rfl⟩ := h
            exact .lose item pending verdict _ rfl
      | nil =>
          simp only [turn, Option.some.injEq, Prod.mk.injEq] at h
          obtain ⟨rfl, rfl, rfl⟩ := h
          cases verdict with
          | done state => exact .goOn state _
          | failed e => exact .fail e _
          | panicked => exact .panic _
  | ended result => simp [turn] at h

lemma Move.hasEnded_eq_false (h : Move stage closed room w inbox w' inbox' sent) :
    w.hasEnded = false := by
  cases h <;> rfl

/-- A worker without a turn has ended, or waits for an item that may still come, or waits
for room. -/
lemma cases_of_turn_eq_none (h : w.turn stage closed room inbox = none) :
    w.hasEnded = true ∨ (w.isWaiting = true ∧ closed = false ∧ inbox = []) ∨ room = .full := by
  cases w with
  | waiting state =>
      cases inbox with
      | cons item rest => simp [turn] at h
      | nil =>
          rw [turn] at h
          split_ifs at h with hclosed
          exact .inr (.inl ⟨rfl, by simpa using hclosed, rfl⟩)
  | sending pending verdict =>
      cases pending with
      | cons item pending =>
          cases room <;> simp only [turn, reduceCtorEq] at h
          exact .inr (.inr rfl)
      | nil => simp [turn] at h
  | ended result => exact .inl rfl

lemma exists_eq_ended (h : w.hasEnded = true) : ∃ result, w = ended result := by
  cases w with
  | waiting state => cases h
  | sending pending verdict => cases h
  | ended result => exact ⟨result, rfl⟩

end Worker

/-! ### Pools -/

namespace Pool

variable {stage : Stage σ α β ε} {closed : Bool} {room : Room} {i : ℕ}
  {p p' : Pool σ α β ε} {sent : Option β}

/-- A turn of a pool is a move of the worker whose number it is given. -/
lemma exists_move (h : p.turn stage closed room i = some (p', sent)) :
    ∃ w w', p.workers[i]? = some w ∧
      Worker.Move stage closed room w p.inbox w' p'.inbox sent ∧
      p'.workers = p.workers.set i w' := by
  rw [turn] at h
  split at h
  · cases h
  · rename_i w hw
    split at h
    · cases h
    · rename_i w' inbox' sent' ht
      cases h
      exact ⟨w, w', hw, Worker.move_of_turn ht, rfl⟩

lemma hasEnded_eq_false_of_turn (h : p.turn stage closed room i = some (p', sent)) :
    p.hasEnded = false := by
  obtain ⟨w, w', hw, hmove, -⟩ := exists_move h
  rw [hasEnded, List.all_eq_false]
  exact ⟨w, List.mem_of_getElem? hw, by simp [hmove.hasEnded_eq_false]⟩

lemma length_workers_of_turn (h : p.turn stage closed room i = some (p', sent)) :
    p'.workers.length = p.workers.length := by
  obtain ⟨w, w', -, -, hset⟩ := exists_move h
  rw [hset, List.length_set]

@[simp] lemma workers_receive (p : Pool σ α β ε) (item : Option α) :
    (p.receive item).workers = p.workers := rfl

@[simp] lemma inbox_receive (p : Pool σ α β ε) (item : Option α) :
    (p.receive item).inbox = p.inbox ++ item.toList := rfl

end Pool

/-! ### The broadcaster -/

namespace Broadcaster

/-- The ways in which the broadcaster, the items queued for it, and the item that it sends
can change in one turn. -/
inductive Move (closed : Bool) (rooms : List Room) :
    Broadcaster α ε → List α → Broadcaster α ε → List α → Option (ℕ × α) → Prop
  /-- It takes an item. -/
  | take (sent : ℕ) (item : α) (rest : List α) :
      Move closed rooms (waiting sent) (item :: rest) (delivering item 0 sent) rest none
  /-- It ends, because no item will come. -/
  | finish (sent : ℕ) (hclosed : closed = true) :
      Move closed rooms (waiting sent) [] (ended (.ok sent)) [] none
  /-- Everybody has the item. -/
  | goOn (item : α) (next sent : ℕ) (inbox : List α) (hroom : rooms[next]? = none) :
      Move closed rooms (delivering item next sent) inbox (waiting (sent + 1)) inbox none
  /-- It sends the item to the next receiver. -/
  | send (item : α) (next sent : ℕ) (inbox : List α) (hroom : rooms[next]? = some .free) :
      Move closed rooms (delivering item next sent) inbox
        (delivering item (next + 1) sent) inbox (some (next, item))
  /-- It ends, because the next receiver is gone. -/
  | lose (item : α) (next sent : ℕ) (inbox : List α) (hroom : rooms[next]? = some .gone) :
      Move closed rooms (delivering item next sent) inbox
        (ended (.error (.disconnected name))) inbox none

variable {closed : Bool} {rooms : List Room} {b b' : Broadcaster α ε} {inbox inbox' : List α}
  {sent : Option (ℕ × α)}

/-- Every turn of the broadcaster is one of its moves. -/
lemma move_of_turn (h : b.turn closed rooms inbox = some (b', inbox', sent)) :
    Move closed rooms b inbox b' inbox' sent := by
  cases b with
  | waiting n =>
      cases inbox with
      | cons item rest =>
          simp only [turn, Option.some.injEq, Prod.mk.injEq] at h
          obtain ⟨rfl, rfl, rfl⟩ := h
          exact .take n item _
      | nil =>
          rw [turn] at h
          split_ifs at h with hclosed
          cases h
          exact .finish n hclosed
  | delivering item next n =>
      simp only [turn] at h
      split at h <;> rename_i hroom <;> cases h
      · exact .goOn item next n _ hroom
      · exact .send item next n _ hroom
      · exact .lose item next n _ hroom
  | ended result => simp [turn] at h

lemma Move.hasEnded_eq_false (h : Move closed rooms b inbox b' inbox' sent) :
    b.hasEnded = false := by
  cases h <;> rfl

lemma exists_eq_ended (h : b.hasEnded = true) : ∃ result, b = ended result := by
  cases b with
  | waiting n => cases h
  | delivering item next n => cases h
  | ended result => exact ⟨result, rfl⟩

/-- A broadcaster without a turn, none of whose receivers lacks room, has ended or waits for
an item that may still come. -/
lemma cases_of_turn_eq_none (hrooms : ∀ r ∈ rooms, r ≠ .full)
    (h : b.turn closed rooms inbox = none) :
    b.hasEnded = true ∨ ((∃ n, b = waiting n) ∧ closed = false ∧ inbox = []) := by
  cases b with
  | waiting n =>
      cases inbox with
      | cons item rest => simp [turn] at h
      | nil =>
          rw [turn] at h
          split_ifs at h with hclosed
          exact .inr ⟨⟨n, rfl⟩, by simpa using hclosed, rfl⟩
  | delivering item next n =>
      simp only [turn] at h
      split at h <;> rename_i hroom <;> cases h
      exact absurd rfl (hrooms _ (List.mem_of_getElem? hroom))
  | ended result => exact .inl rfl

end Broadcaster

/-! ### Pipelines -/

namespace State

/-- What is true of one of several pools stays true of one when it passes on from a pool to
the pool that takes its place. -/
lemma exists_mem_set {γ : Type} {P : γ → Prop} {l : List γ} {k : ℕ} {a a' b : γ}
    (ha : l[k]? = some a) (hP : P a → P a') (hb : b ∈ l) (h : P b) :
    ∃ b' ∈ l.set k a', P b' := by
  obtain ⟨j, hj⟩ := List.mem_iff_getElem?.1 hb
  by_cases hkj : k = j
  · subst hkj
    obtain rfl := Option.some.inj (ha.symm.trans hj)
    exact ⟨a', List.mem_set (List.getElem?_eq_some_iff.1 ha).1 a', hP h⟩
  · exact ⟨b, List.mem_iff_getElem?.2 ⟨j, by rw [List.getElem?_set_ne hkj, hj]⟩, h⟩

section Deliver

variable {pools : List (Pool Unit SourceFile CallCount Cause)}
  {sent : Option (ℕ × SourceFile)} {pool : Pool Unit SourceFile CallCount Cause}

/-- Delivery only adds to the queue of a pool. -/
lemma mem_deliver (h : pool ∈ deliver pools sent) :
    ∃ old ∈ pools, pool = old ∨ ∃ k file, sent = some (k, file) ∧ pool = old.receive (some file) := by
  cases sent with
  | none => exact ⟨pool, h, .inl rfl⟩
  | some sent =>
      obtain ⟨j, hj⟩ := List.mem_iff_getElem?.1 h
      rw [deliver, List.getElem?_modify] at hj
      obtain ⟨old, hold, hnew⟩ := Option.map_eq_some_iff.1 hj
      refine ⟨old, List.mem_of_getElem? hold, ?_⟩
      split_ifs at hnew
      · exact .inr ⟨_, _, rfl, hnew.symm⟩
      · exact .inl hnew.symm

/-- Delivery leaves the workers of every pool as they are. -/
lemma exists_mem_deliver (sent : Option (ℕ × SourceFile)) (h : pool ∈ pools) :
    ∃ new ∈ deliver pools sent, new.workers = pool.workers := by
  cases sent with
  | none => exact ⟨pool, h, rfl⟩
  | some sent =>
      obtain ⟨j, hj⟩ := List.mem_iff_getElem?.1 h
      have hnew := List.getElem?_modify (fun p => p.receive (some sent.2)) sent.1 pools j
      rw [hj, Option.map_eq_map, Option.map_some] at hnew
      refine ⟨_, List.mem_of_getElem? hnew, ?_⟩
      split_ifs <;> rfl

end Deliver

/-- The ways in which a pipeline can change in one turn of a thread. -/
inductive Move (plan : Plan) (s : State) : Thread → State → Prop
  | extract (i : ℕ) {pool : Pool Unit Archive.Reference SourceFile Cause}
      {sent : Option SourceFile}
      (h : s.extract.turn plan.extract true (s.comments.room plan.capacity) i
        = some (pool, sent)) :
      Move plan s (.extract i)
        { s with extract := pool, comments := s.comments.receive sent }
  | comments (i : ℕ) {pool : Pool Unit SourceFile SourceFile Cause} {sent : Option SourceFile}
      (h : s.comments.turn plan.comments s.extract.hasEnded (s.imports.room plan.capacity) i
        = some (pool, sent)) :
      Move plan s (.comments i)
        { s with comments := pool, imports := s.imports.receive sent }
  | imports (i : ℕ) {pool : Pool (List Nat) SourceFile SourceFile Cause}
      {sent : Option SourceFile}
      (h : s.imports.turn plan.imports s.comments.hasEnded (s.literals.room plan.capacity) i
        = some (pool, sent)) :
      Move plan s (.imports i)
        { s with imports := pool, literals := s.literals.receive sent }
  | literals (i : ℕ) {pool : Pool Unit SourceFile SourceFile Cause} {sent : Option SourceFile}
      (h : s.literals.turn plan.literals s.imports.hasEnded
        (s.broadcaster.room plan.capacity s.cleaned.length) i = some (pool, sent)) :
      Move plan s (.literals i)
        { s with literals := pool, cleaned := s.cleaned ++ sent.toList }
  | broadcaster {b : Broadcaster SourceFile Cause} {cleaned : List SourceFile}
      {sent : Option (ℕ × SourceFile)}
      (h : s.broadcaster.turn s.literals.hasEnded (s.counters.map (Pool.room plan.capacity))
        s.cleaned = some (b, cleaned, sent)) :
      Move plan s .broadcaster
        { s with broadcaster := b, cleaned := cleaned, counters := deliver s.counters sent }
  | counter (k i : ℕ) {stage : Stage Unit SourceFile CallCount Cause}
      {pool pool' : Pool Unit SourceFile CallCount Cause} {sent : Option CallCount}
      (hstage : plan.counters[k]? = some stage) (hpool : s.counters[k]? = some pool)
      (h : pool.turn stage s.broadcaster.hasEnded (s.main.room plan.capacity s.counts.length) i
        = some (pool', sent)) :
      Move plan s (.counter k i)
        { s with counters := s.counters.set k pool', counts := s.counts ++ sent.toList }
  /-- The main thread adds a count. -/
  | add {total total' : Aggregate} {c : CallCount} {rest : List CallCount}
      (hmain : s.main = .aggregating total) (hcounts : s.counts = c :: rest)
      (hadd : plan.add total c = .ok total') :
      Move plan s .main { s with counts := rest, main := .aggregating total' }
  /-- The main thread refuses a count. -/
  | refuse {total : Aggregate} {c : CallCount} {rest : List CallCount} {e : Cause}
      (hmain : s.main = .aggregating total) (hcounts : s.counts = c :: rest)
      (hadd : plan.add total c = .error e) :
      Move plan s .main { s with counts := rest, main := .joining (.error e) }
  /-- The main thread has added all counts. -/
  | drain {total : Aggregate} (hmain : s.main = .aggregating total) (hcounts : s.counts = [])
      (hended : s.countersEnded = true) :
      Move plan s .main { s with main := .joining (.ok total) }
  /-- The main thread returns. -/
  | finish {total : Except Cause Aggregate} (hmain : s.main = .joining total)
      (hended : s.othersEnded = true) :
      Move plan s .main { s with main := .returned (s.result total) }

lemma counterRooms_signals (capacity : ℕ) (s : State) :
    s.counterRooms s.signals capacity = s.counters.map (Pool.room capacity) := by
  refine List.ext_getElem? fun k => ?_
  rw [counterRooms, List.getElem?_mapIdx, List.getElem?_map]
  cases hk : s.counters[k]? with
  | none => rfl
  | some pool => simp [signals, hk, Pool.room]

lemma closed_operator {s : State} {k : ℕ} {pool : Pool Unit SourceFile CallCount Cause}
    (hk : s.counters[k]? = some pool) :
    s.signals.closed (.operator k) = s.broadcaster.hasEnded :=
  if_pos (List.getElem?_eq_some_iff.1 hk).1

/-- **A turn is a move.** -/
lemma move_of_turn {plan : Plan} {s t : State} {thread : Thread}
    (h : s.turn plan thread = some t) : Move plan s thread t := by
  cases thread with
  | extract i =>
      simp only [turn, turnWith, signals] at h
      split at h <;> rename_i ht <;> cases h
      exact .extract i ht
  | comments i =>
      simp only [turn, turnWith, signals] at h
      split at h <;> rename_i ht <;> cases h
      exact .comments i ht
  | imports i =>
      simp only [turn, turnWith, signals] at h
      split at h <;> rename_i ht <;> cases h
      exact .imports i ht
  | literals i =>
      simp only [turn, turnWith, signals] at h
      split at h <;> rename_i ht <;> cases h
      exact .literals i ht
  | broadcaster =>
      simp only [turn, turnWith, broadcasterTurn, counterRooms_signals] at h
      split at h <;> rename_i ht <;> cases h
      exact .broadcaster ht
  | counter k i =>
      simp only [turn, turnWith, counterTurn] at h
      split at h
      · rename_i hstage hpool
        rw [closed_operator hpool] at h
        split at h <;> rename_i ht <;> cases h
        exact .counter k i hstage hpool ht
      · cases h
  | main =>
      simp only [turn, turnWith, mainTurn] at h
      split at h
      · rename_i hmain
        split at h
        · rename_i hcounts
          split at h <;> rename_i hadd <;> cases h
          · exact .add hmain hcounts hadd
          · exact .refuse hmain hcounts hadd
        · rename_i hcounts
          split_ifs at h with hended
          cases h
          exact .drain hmain hcounts hended
      · rename_i hmain
        split_ifs at h with hended
        cases h
        exact .finish hmain hended
      · cases h

/-- **A move is a turn.** -/
lemma turn_of_move {plan : Plan} {s t : State} {thread : Thread} (h : Move plan s thread t) :
    s.turn plan thread = some t := by
  cases h with
  | extract i h =>
      rw [Pool.room] at h
      simp only [turn, turnWith, signals, h]
  | comments i h =>
      rw [Pool.room] at h
      simp only [turn, turnWith, signals, h]
  | imports i h =>
      rw [Pool.room] at h
      simp only [turn, turnWith, signals, h]
  | literals i h =>
      rw [Broadcaster.room] at h
      simp only [turn, turnWith, signals, h]
  | broadcaster h =>
      simp only [turn, turnWith, broadcasterTurn, counterRooms_signals]
      simp only [signals, h]
  | counter k i hstage hpool h =>
      rw [Main.room] at h
      simp only [turn, turnWith, counterTurn, hstage, hpool, closed_operator hpool]
      simp only [signals, h]
  | add hmain hcounts hadd | refuse hmain hcounts hadd =>
      simp only [turn, turnWith, mainTurn, hmain, hcounts, hadd]
  | drain hmain hcounts hended =>
      simp only [turn, turnWith, mainTurn, signals, hmain, hcounts, hended, if_true]
  | finish hmain hended =>
      simp only [turn, turnWith, mainTurn, hmain, hended, if_true]

/-- Only the main thread changes what it does. -/
lemma Move.main_eq {plan : Plan} {s t : State} {thread : Thread} (h : Move plan s thread t)
    (hthread : thread ≠ .main) : t.main = s.main := by
  cases h <;> first | rfl | exact absurd rfl hthread

end State

end CallCensus.Pipeline
