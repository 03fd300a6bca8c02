import CallCensus.Pipeline.Worker

/-!
The broadcaster: a thread that sends every item of its queue to all of several receivers,
one receiver after the other.

* `Broadcaster.turn`: one turn;
* `Broadcaster.turn_decreases`: a turn takes an item, or lowers the broadcaster's `rank`;
* `Broadcaster.run`: all turns of a broadcaster on its own.
-/

namespace CallCensus.Pipeline

variable {α ε : Type}

/-- The broadcaster between two turns. -/
inductive Broadcaster (α ε : Type) where
  /-- It is about to take an item, and has sent `sent` of them to everybody. -/
  | waiting (sent : Nat)
  /-- It is about to send an item to the receiver numbered `next`. -/
  | delivering (item : α) (next sent : Nat)
  /-- It has ended, with the number of items sent to everybody or with a failure. -/
  | ended (result : Except (Failure ε) Nat)

namespace Broadcaster

/-- The name of the broadcaster in messages. -/
def name : String := "broadcast"

/-- Whether the broadcaster has ended. -/
def hasEnded : Broadcaster α ε → Bool
  | ended _ => true
  | _ => false

/-- How many wait for an item of the queue of the broadcaster. -/
def waitingCount : Broadcaster α ε → Nat
  | waiting _ => 1
  | _ => 0

/-- The room in the queue of the broadcaster, which holds `length` items. `deserted` says
that nobody takes from it any more. -/
def roomIn (deserted : Bool) (capacity length : Nat) (b : Broadcaster α ε) : Room :=
  .inQueue deserted capacity length b.waitingCount

/-- The room in the queue of the broadcaster, which is deserted when the broadcaster has
ended. -/
def room (capacity length : Nat) (b : Broadcaster α ε) : Room :=
  b.roomIn b.hasEnded capacity length

/-- One turn of the broadcaster: the broadcaster after it, what is left of its queue, and
the item that it has sent, if any, with the number of the receiver. -/
def turn (closed : Bool) (rooms : List Room) (inbox : List α) :
    Broadcaster α ε → Option (Broadcaster α ε × List α × Option (Nat × α))
  | waiting sent =>
    match inbox with
    | item :: rest => some (delivering item 0 sent, rest, none)
    | [] => if closed then some (ended (.ok sent), [], none) else none
  | delivering item next sent =>
    match rooms[next]? with
    | none => some (waiting (sent + 1), inbox, none)
    | some .free => some (delivering item (next + 1) sent, inbox, some (next, item))
    | some .full => none
    | some .gone => some (ended (.error (.disconnected name)), inbox, none)
  | ended _ => none

/-- How many turns the broadcaster has at most before it takes an item, where it sends to
`width` receivers. -/
def rank (width : Nat) : Broadcaster α ε → Nat
  | waiting _ => 1
  | delivering _ next _ => width - next + 2
  | ended _ => 0

/-- A turn takes an item from the queue, or leaves the queue and lowers the rank. -/
theorem turn_decreases {closed : Bool} {rooms : List Room} {inbox inbox' : List α}
    {b b' : Broadcaster α ε} {sent : Option (Nat × α)}
    (h : b.turn closed rooms inbox = some (b', inbox', sent)) :
    inbox'.length < inbox.length ∨
      inbox' = inbox ∧ b'.rank rooms.length < b.rank rooms.length := by
  cases b with
  | waiting n =>
    cases inbox with
    | nil => cases closed <;> simp [turn] at h; obtain ⟨rfl, rfl, _⟩ := h; simp [rank]
    | cons item rest => simp [turn] at h; obtain ⟨_, rfl, _⟩ := h; simp
  | delivering item next n =>
    simp only [turn] at h
    split at h
    · cases h; simp [rank]
    · rename_i hroom
      have hlt : next < rooms.length := (List.getElem?_eq_some_iff.1 hroom).1
      cases h
      refine .inr ⟨rfl, ?_⟩
      simp only [rank]
      omega
    · cases h
    · cases h; simp [rank]
  | ended result => simp [turn] at h

/-- Add an item to the queue of one of several receivers. -/
def deliver (queues : List (List α)) : Option (Nat × α) → List (List α)
  | none => queues
  | some (k, item) => queues.modify k (· ++ [item])

/-- All turns of a broadcaster on its own, whose queue is closed and who finds the same
room at the receivers all the time: what it comes to, and what the receivers got. -/
def runFrom (rooms : List Room) (inbox : List α) (b : Broadcaster α ε) (queues : List (List α)) :
    Broadcaster α ε × List (List α) :=
  match _h : b.turn true rooms inbox with
  | none => (b, queues)
  | some (b', inbox', sent) => runFrom rooms inbox' b' (deliver queues sent)
termination_by (inbox.length, b.rank rooms.length)
decreasing_by
  rcases turn_decreases _h with hlt | ⟨rfl, hlt⟩
  · exact .left _ _ hlt
  · exact .right _ hlt

/-- All turns of a broadcaster on its own, from the start. -/
def run (rooms : List Room) (items : List α) : Broadcaster α ε × List (List α) :=
  runFrom rooms items (.waiting 0) (rooms.map fun _ => [])

end Broadcaster

end CallCensus.Pipeline
