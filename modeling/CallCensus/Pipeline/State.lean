import CallCensus.Aggregate
import CallCensus.Archive.Extract
import CallCensus.Pipeline.Broadcaster
import CallCensus.Pipeline.Pool

/-!
The counting pipeline as a machine.

Archives go through five stages: their files are taken out, comments are removed, files
without evidence are dropped, literals are removed, and a broadcaster sends what is left
to one pool of counters per operator. The main thread adds up the counts, and when there
are no more, or when one is refused, it waits for all threads and returns.

Between two stages there is a queue. Who takes from a queue is told when nobody sends to it
any more, and who sends to it is told when nobody takes from it any more.

* `Plan`: what the stages do. Nothing is assumed about it;
* `State`: the threads and queues between two turns;
* `State.turnWith`: one turn of one thread, which is told about the ends of the queues from
  outside;
* `State.turn`: one turn of one thread, where a queue is closed when all that send to it have
  ended, and deserted when all that take from it have. The threads take turns in any order.
-/

namespace CallCensus.Pipeline

/-- What the stages of a pipeline do, and how many items a queue keeps. -/
structure Plan where
  extract : Stage Unit Archive.Reference SourceFile Cause
  comments : Stage Unit SourceFile SourceFile Cause
  imports : Stage (List Nat) SourceFile SourceFile Cause
  literals : Stage Unit SourceFile SourceFile Cause
  /-- One for each operator. -/
  counters : List (Stage Unit SourceFile CallCount Cause)
  /-- Add a count to those before. -/
  add : Aggregate → CallCount → Except Cause Aggregate
  capacity : Nat

/-- What a run gives when it succeeds: the counts added up, and the last state of every
worker that looked for evidence. -/
abbrev Outcome := Aggregate × List (List Nat)

/-- The main thread between two turns. -/
inductive Main where
  /-- It adds up counts. -/
  | aggregating (total : Aggregate)
  /-- It waits for the other threads to end. -/
  | joining (total : Except Cause Aggregate)
  /-- It has returned. -/
  | returned (result : Except (Failure Cause) Outcome)

namespace Main

/-- Whether the main thread still takes counts. -/
def isAggregating : Main → Bool
  | aggregating _ => true
  | _ => false

/-- The room in the queue of the main thread, which holds `length` counts. `deserted` says
that nobody takes from it any more. -/
def roomIn (deserted : Bool) (capacity length : Nat) (m : Main) : Room :=
  .inQueue deserted capacity length (if m.isAggregating then 1 else 0)

/-- The room in the queue of the main thread, which is deserted when the main thread takes
no more counts. -/
def room (capacity length : Nat) (m : Main) : Room :=
  m.roomIn (!m.isAggregating) capacity length

/-- How many turns the main thread has at most that take no count. -/
def rank : Main → Nat
  | aggregating _ => 2
  | joining _ => 1
  | returned _ => 0

end Main

/-- The threads of a pipeline. -/
inductive Thread where
  | extract (worker : Nat)
  | comments (worker : Nat)
  | imports (worker : Nat)
  | literals (worker : Nat)
  | broadcaster
  | counter (operator worker : Nat)
  | main
deriving DecidableEq, Repr

/-- The queues between the threads. -/
inductive Queue where
  | archives
  /-- Files as they are in the archives. -/
  | raw
  /-- Files without comments. -/
  | uncommented
  /-- Files with evidence. -/
  | imported
  /-- Files without literals. -/
  | cleaned
  /-- Files for the counters of an operator. -/
  | operator (number : Nat)
  | counts
deriving DecidableEq, Repr

/-- What the threads are told about the ends of the queues. -/
@[ext]
structure Signals where
  /-- Whether nobody sends to a queue any more. -/
  closed : Queue → Bool
  /-- Whether nobody takes from a queue any more. -/
  deserted : Queue → Bool

/-- A pipeline between two turns. -/
structure State where
  extract : Pool Unit Archive.Reference SourceFile Cause
  comments : Pool Unit SourceFile SourceFile Cause
  imports : Pool (List Nat) SourceFile SourceFile Cause
  literals : Pool Unit SourceFile SourceFile Cause
  /-- The files that are queued for the broadcaster. -/
  cleaned : List SourceFile
  broadcaster : Broadcaster SourceFile Cause
  /-- One for each operator. -/
  counters : List (Pool Unit SourceFile CallCount Cause)
  /-- The counts that are queued for the main thread. -/
  counts : List CallCount
  main : Main

namespace State

/-- A pipeline at the start, with the given numbers of workers for each stage and for each
operator. Workers that look for evidence start in the state `tallies`. -/
def start (workers counterWorkers operators : Nat) (tallies : List Nat)
    (archives : List Archive.Reference) (total : Aggregate) : State where
  extract := .start workers () archives
  comments := .start workers () []
  imports := .start workers tallies []
  literals := .start workers () []
  cleaned := []
  broadcaster := .waiting 0
  counters := List.replicate operators (.start counterWorkers () [])
  counts := []
  main := .aggregating total

/-- Whether all counters have ended. -/
def countersEnded (s : State) : Bool :=
  s.counters.all Pool.hasEnded

/-- Whether all threads but the main thread have ended. -/
def othersEnded (s : State) : Bool :=
  s.extract.hasEnded && s.comments.hasEnded && s.imports.hasEnded && s.literals.hasEnded &&
    s.broadcaster.hasEnded && s.countersEnded

/-- The failure of the broadcaster, if it has failed. -/
def broadcastFailure? (s : State) : Option (Failure Cause) :=
  match s.broadcaster with
  | .ended (.error f) => some f
  | _ => none

/-- The failures that the main thread finds, the one of adding up first and the others in
the order of the stages. -/
def failures (s : State) (total : Except Cause Aggregate) : List (Failure Cause) :=
  (match total with
    | .error e => [.cause e]
    | .ok _ => []) ++
  (s.extract.failure?.toList ++ s.comments.failure?.toList ++ s.imports.failure?.toList ++
    s.literals.failure?.toList ++ s.broadcastFailure?.toList ++
    s.counters.filterMap Pool.failure?)

/-- The failure that others are echoes of: the first that is no echo. -/
def rootCause? (failures : List (Failure Cause)) : Option (Failure Cause) :=
  match failures.find? fun f => !f.isEcho with
  | some f => some f
  | none => failures.head?

/-- What the main thread returns after all other threads have ended. -/
def result (s : State) (total : Except Cause Aggregate) : Except (Failure Cause) Outcome :=
  match rootCause? (s.failures total), total with
  | some f, _ => .error f
  | none, .ok total => .ok (total, s.imports.states)
  | none, .error e => .error (.cause e)

/-- One turn of the main thread. -/
def mainTurn (signals : Signals) (plan : Plan) (s : State) : Option State :=
  match s.main with
  | .aggregating total =>
    match s.counts with
    | c :: rest =>
      match plan.add total c with
      | .ok total => some { s with counts := rest, main := .aggregating total }
      | .error e => some { s with counts := rest, main := .joining (.error e) }
    | [] => if signals.closed .counts then some { s with main := .joining (.ok total) } else none
  | .joining total =>
    if s.othersEnded then some { s with main := .returned (s.result total) } else none
  | .returned _ => none

/-- The pools of the counters after a file has been sent to one of them. -/
def deliver (pools : List (Pool Unit SourceFile CallCount Cause)) :
    Option (Nat × SourceFile) → List (Pool Unit SourceFile CallCount Cause)
  | none => pools
  | some (k, file) => pools.modify k fun p => p.receive (some file)

/-- The room that the broadcaster finds at the counters. -/
def counterRooms (signals : Signals) (capacity : Nat) (s : State) : List Room :=
  s.counters.mapIdx fun k p => p.roomIn (signals.deserted (.operator k)) capacity

/-- One turn of the broadcaster. -/
def broadcasterTurn (signals : Signals) (plan : Plan) (s : State) : Option State :=
  match s.broadcaster.turn (signals.closed .cleaned) (s.counterRooms signals plan.capacity)
      s.cleaned with
  | none => none
  | some (b, cleaned, sent) =>
    some { s with broadcaster := b, cleaned := cleaned, counters := deliver s.counters sent }

/-- One turn of the worker numbered `i` of the counters of the operator numbered `k`. -/
def counterTurn (signals : Signals) (plan : Plan) (k i : Nat) (s : State) : Option State :=
  match plan.counters[k]?, s.counters[k]? with
  | some stage, some pool =>
    match pool.turn stage (signals.closed (.operator k))
        (s.main.roomIn (signals.deserted .counts) plan.capacity s.counts.length) i with
    | none => none
    | some (pool, sent) =>
      some { s with counters := s.counters.set k pool, counts := s.counts ++ sent.toList }
  | _, _ => none

/-- One turn of a thread that is told `signals`, or `none` when the thread has none: it
waits, or has ended. -/
def turnWith (signals : Signals) (plan : Plan) (t : Thread) (s : State) : Option State :=
  match t with
  | .extract i =>
    match s.extract.turn plan.extract (signals.closed .archives)
        (s.comments.roomIn (signals.deserted .raw) plan.capacity) i with
    | none => none
    | some (pool, sent) => some { s with extract := pool, comments := s.comments.receive sent }
  | .comments i =>
    match s.comments.turn plan.comments (signals.closed .raw)
        (s.imports.roomIn (signals.deserted .uncommented) plan.capacity) i with
    | none => none
    | some (pool, sent) => some { s with comments := pool, imports := s.imports.receive sent }
  | .imports i =>
    match s.imports.turn plan.imports (signals.closed .uncommented)
        (s.literals.roomIn (signals.deserted .imported) plan.capacity) i with
    | none => none
    | some (pool, sent) => some { s with imports := pool, literals := s.literals.receive sent }
  | .literals i =>
    match s.literals.turn plan.literals (signals.closed .imported)
        (s.broadcaster.roomIn (signals.deserted .cleaned) plan.capacity s.cleaned.length) i with
    | none => none
    | some (pool, sent) => some { s with literals := pool, cleaned := s.cleaned ++ sent.toList }
  | .broadcaster => s.broadcasterTurn signals plan
  | .counter k i => s.counterTurn signals plan k i
  | .main => s.mainTurn signals plan

/-- What the threads themselves tell about the ends of the queues. Nobody sends to the queue
of the archives, which is filled at the start, and nobody is at a queue that is not there. -/
def signals (s : State) : Signals where
  closed
    | .archives => true
    | .raw => s.extract.hasEnded
    | .uncommented => s.comments.hasEnded
    | .imported => s.imports.hasEnded
    | .cleaned => s.literals.hasEnded
    | .operator k => if k < s.counters.length then s.broadcaster.hasEnded else true
    | .counts => s.countersEnded
  deserted
    | .archives => s.extract.hasEnded
    | .raw => s.comments.hasEnded
    | .uncommented => s.imports.hasEnded
    | .imported => s.literals.hasEnded
    | .cleaned => s.broadcaster.hasEnded
    | .operator k => (s.counters[k]?.map Pool.hasEnded).getD true
    | .counts => !s.main.isAggregating

/-- One turn of a thread, or `none` when the thread has none: it waits, or has ended. -/
def turn (plan : Plan) (t : Thread) (s : State) : Option State :=
  s.turnWith s.signals plan t

/-- One turn of any thread. -/
def Step (plan : Plan) (s t : State) : Prop :=
  ∃ thread, s.turn plan thread = some t

end State

end CallCensus.Pipeline
