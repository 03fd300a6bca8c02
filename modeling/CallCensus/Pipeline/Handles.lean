import CallCensus.Pipeline.State

/-!
Who holds the ends of the queues.

A queue has an end to send to it and an end to take from it, and each can be held many
times. Nobody sends to a queue any more when nobody holds its first end, and nobody takes
from it any more when nobody holds its second.

The main thread makes the queues, and hands out their ends to the threads that it starts. It
has to let go of all that it keeps for itself but the end from which it takes counts:
otherwise queues stay open when nobody is left to send to them, and others stay in use when
nobody is left to take from them. A thread lets go of its ends when it ends.

* `Handles`: who holds the ends of the queues;
* `Handles.setUp`: who holds them after the main thread has started all others;
* `Held.turn`: one turn of one thread, which is told what the holders of the ends tell.
-/

namespace CallCensus.Pipeline

/-- Who holds the ends of a queue. Who holds an end more than once is there more than
once. -/
structure Holders where
  senders : List Thread
  receivers : List Thread

/-- Who holds the ends of the queues. -/
abbrev Handles := Queue → Holders

namespace Handles

/-- Change who holds the ends of one queue. -/
def update (q : Queue) (f : Holders → Holders) (h : Handles) : Handles :=
  fun q' => if q' = q then f (h q') else h q'

/-- The main thread makes a queue, and holds both of its ends. -/
def create (q : Queue) : Handles → Handles :=
  update q fun _ => ⟨[.main], [.main]⟩

/-- The main thread makes a copy of the end to send to a queue. -/
def cloneSender (q : Queue) : Handles → Handles :=
  update q fun e => { e with senders := .main :: e.senders }

/-- Threads are given a copy each of the end to send to a queue. -/
def shareSender (threads : List Thread) (q : Queue) : Handles → Handles :=
  update q fun e => { e with senders := e.senders ++ threads }

/-- Threads are given a copy each of the end to take from a queue. -/
def shareReceiver (threads : List Thread) (q : Queue) : Handles → Handles :=
  update q fun e => { e with receivers := e.receivers ++ threads }

/-- The main thread lets go of an end to send to a queue. -/
def dropSender (q : Queue) : Handles → Handles :=
  update q fun e => { e with senders := e.senders.erase .main }

/-- The main thread lets go of an end to take from a queue. -/
def dropReceiver (q : Queue) : Handles → Handles :=
  update q fun e => { e with receivers := e.receivers.erase .main }

/-- Start a pool of threads that take from one queue and send to another. The main thread
gives up an end to send to the second. -/
def spawnPool (threads : List Thread) (input output : Queue) (h : Handles) : Handles :=
  ((h.shareReceiver threads input).shareSender threads output).dropSender output

/-- Start the threads of a stage, and make the queue that they send to. -/
def startStage (threads : List Thread) (input output : Queue) (h : Handles) : Handles :=
  ((h.create output).spawnPool threads input output).dropReceiver input

/-- The counters of an operator. -/
def counterThreads (counterWorkers k : Nat) : List Thread :=
  (List.range counterWorkers).map (.counter k)

/-- Start the counters of the first operators, and make the queues that they take from. The
main thread keeps an end to send to each of these. -/
def startCounters (counterWorkers : Nat) : Nat → Handles → Handles
  | 0, h => h
  | k + 1, h =>
    ((((startCounters counterWorkers k h).create (.operator k)).cloneSender .counts).spawnPool
      (counterThreads counterWorkers k) (.operator k) .counts).dropReceiver (.operator k)

/-- Give the broadcaster the ends to send to the queues of the first operators. -/
def giveOperators : Nat → Handles → Handles
  | 0, h => h
  | k + 1, h =>
    ((giveOperators k h).shareSender [.broadcaster] (.operator k)).dropSender (.operator k)

/-- Fill the queue of archives, and start the stages before the broadcaster. -/
def startStages (workers : Nat) : Handles :=
  let pool (thread : Nat → Thread) := (List.range workers).map thread
  create .archives (fun _ => ⟨[], []⟩)
    |> dropSender .archives
    |> startStage (pool .extract) .archives .raw
    |> startStage (pool .comments) .raw .uncommented
    |> startStage (pool .imports) .uncommented .imported
    |> startStage (pool .literals) .imported .cleaned

/-- Who holds the ends of the queues after the main thread has started all other threads. -/
def setUp (workers counterWorkers operators : Nat) : Handles :=
  startStages workers
    |> create .counts
    |> startCounters counterWorkers operators
    |> dropSender .counts
    |> giveOperators operators
    |> shareReceiver [.broadcaster] .cleaned
    |> dropReceiver .cleaned

/-- A thread lets go of all that it holds. -/
def release (t : Thread) (h : Handles) : Handles :=
  fun q => ⟨(h q).senders.filter (· ≠ t), (h q).receivers.filter (· ≠ t)⟩

/-- What the holders of the ends tell about the queues. -/
def signals (h : Handles) : Signals where
  closed q := (h q).senders.isEmpty
  deserted q := (h q).receivers.isEmpty

end Handles

/-- Whether the worker numbered `i` has not ended. -/
def Pool.runs {σ α β ε : Type} (i : Nat) (p : Pool σ α β ε) : Bool :=
  match p.workers[i]? with
  | some w => !w.hasEnded
  | none => false

/-- Whether a thread keeps the ends of queues that it was given: until it ends, and the main
thread until it takes no more counts. -/
def State.keeps (s : State) : Thread → Bool
  | .extract i => s.extract.runs i
  | .comments i => s.comments.runs i
  | .imports i => s.imports.runs i
  | .literals i => s.literals.runs i
  | .broadcaster => !s.broadcaster.hasEnded
  | .counter k i =>
    match s.counters[k]? with
    | some pool => pool.runs i
    | none => false
  | .main => s.main.isAggregating

/-- A pipeline between two turns, with the holders of the ends of its queues. -/
structure Held where
  state : State
  handles : Handles

namespace Held

/-- A pipeline whose threads have all been started. -/
def start (workers counterWorkers operators : Nat) (tallies : List Nat)
    (archives : List Archive.Reference) (total : Aggregate) : Held where
  state := .start workers counterWorkers operators tallies archives total
  handles := .setUp workers counterWorkers operators

/-- The pipeline after a thread has changed its state. The thread lets go of its ends when it
does not keep them. -/
def after (t : Thread) (s : State) (x : Held) : Held where
  state := s
  handles := if s.keeps t then x.handles else x.handles.release t

/-- One turn of a thread, or `none` when the thread has none. -/
def turn (plan : Plan) (t : Thread) (x : Held) : Option Held :=
  (x.state.turnWith x.handles.signals plan t).map fun s => x.after t s

end Held

end CallCensus.Pipeline
