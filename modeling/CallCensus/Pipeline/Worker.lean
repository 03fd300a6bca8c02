import CallCensus.Error

/-!
Workers: threads that take items from one queue, process them, and send what comes of
them to another.

* `Stage`: a kind of work;
* `Worker`: a worker between two turns;
* `Worker.turn`: one turn. A worker that can do nothing has none: it waits for an item, or
  for room to send to;
* `Worker.turn_decreases`: a turn takes an item, or lowers the worker's `rank`.
-/

namespace CallCensus.Pipeline

variable {σ α β ε : Type}

/-- How the processing of an item ends. -/
inductive Verdict (σ ε : Type) where
  /-- Well, with a new state. -/
  | done (state : σ)
  /-- With a failure. -/
  | failed (e : ε)
  /-- With a panic. -/
  | panicked

/-- A kind of work. An item is processed in the state that the items before it have left,
and gives items to be sent on and a verdict. -/
structure Stage (σ α β ε : Type) where
  name : String
  process : σ → α → List β × Verdict σ ε

/-- What a sender finds at the queue that it sends to. -/
inductive Room where
  /-- There is room for an item. -/
  | free
  /-- There is no room at present. -/
  | full
  /-- Nobody takes from the queue any more. -/
  | gone
deriving DecidableEq, Repr

/-- The room in a queue that holds `length` items. `deserted` says that nobody takes from it
any more. A queue without capacity passes items on to receivers that wait for them;
otherwise it keeps as many as its capacity. -/
def Room.inQueue (deserted : Bool) (capacity length waiting : Nat) : Room :=
  if deserted then .gone
  else if length < (if capacity = 0 then waiting else capacity) then .free
  else .full

/-- A queue is given up when it is deserted, and only then. -/
theorem Room.inQueue_eq_gone {deserted : Bool} {capacity length waiting : Nat} :
    Room.inQueue deserted capacity length waiting = .gone ↔ deserted = true := by
  cases deserted with
  | true => simp [inQueue]
  | false =>
    by_cases hlt : length < (if capacity = 0 then waiting else capacity)
    · simp [inQueue, if_pos hlt]
    · simp [inQueue, if_neg hlt]

/-- A worker between two turns. -/
inductive Worker (σ β ε : Type) where
  /-- It is about to take an item. -/
  | waiting (state : σ)
  /-- It has processed an item and has these to send. -/
  | sending (pending : List β) (verdict : Verdict σ ε)
  /-- It has ended, with its last state or with a failure. -/
  | ended (result : Except (Failure ε) σ)

namespace Worker

/-- Whether a worker has ended. -/
def hasEnded : Worker σ β ε → Bool
  | ended _ => true
  | _ => false

/-- Whether a worker waits for an item. -/
def isWaiting : Worker σ β ε → Bool
  | waiting _ => true
  | _ => false

/-- What a worker turns into after it has sent everything. -/
def conclude (name : String) : Verdict σ ε → Worker σ β ε
  | .done state => waiting state
  | .failed e => ended (.error (.cause e))
  | .panicked => ended (.error (.panicked name))

/-- One turn of a worker: the worker after it, what is left of its queue, and the item
that it has sent, if any. `closed` says that nothing will be added to the queue. -/
def turn (stage : Stage σ α β ε) (closed : Bool) (room : Room) (inbox : List α) :
    Worker σ β ε → Option (Worker σ β ε × List α × Option β)
  | waiting state =>
    match inbox with
    | item :: rest =>
      match stage.process state item with
      | (pending, verdict) => some (sending pending verdict, rest, none)
    | [] => if closed then some (ended (.ok state), [], none) else none
  | sending (item :: pending) verdict =>
    match room with
    | .free => some (sending pending verdict, inbox, some item)
    | .full => none
    | .gone => some (ended (.error (.disconnected stage.name)), inbox, none)
  | sending [] verdict => some (conclude stage.name verdict, inbox, none)
  | ended _ => none

/-- How many turns a worker has at most before it takes an item. -/
def rank : Worker σ β ε → Nat
  | waiting _ => 1
  | sending pending _ => pending.length + 2
  | ended _ => 0

theorem rank_conclude (name : String) (v : Verdict σ ε) :
    (conclude name v : Worker σ β ε).rank ≤ 1 := by
  cases v <;> simp [conclude, rank]

/-- A turn takes an item from the queue, or leaves the queue and lowers the rank. -/
theorem turn_decreases {stage : Stage σ α β ε} {closed : Bool} {room : Room} {inbox inbox' : List α}
    {w w' : Worker σ β ε} {sent : Option β}
    (h : w.turn stage closed room inbox = some (w', inbox', sent)) :
    inbox'.length < inbox.length ∨ inbox' = inbox ∧ w'.rank < w.rank := by
  cases w with
  | waiting state =>
    cases inbox with
    | nil => cases closed <;> simp [turn] at h; obtain ⟨rfl, rfl, _⟩ := h; simp [rank]
    | cons item rest => simp [turn] at h; obtain ⟨_, rfl, _⟩ := h; simp
  | sending pending verdict =>
    cases pending with
    | nil =>
      simp only [turn, Option.some.injEq, Prod.mk.injEq] at h
      obtain ⟨rfl, rfl, _⟩ := h
      exact .inr ⟨rfl, Nat.lt_succ_of_le (rank_conclude stage.name verdict)⟩
    | cons item pending =>
      cases room <;> simp [turn] at h <;> obtain ⟨rfl, rfl, _⟩ := h <;> simp [rank]
  | ended result => simp [turn] at h

end Worker

end CallCensus.Pipeline
