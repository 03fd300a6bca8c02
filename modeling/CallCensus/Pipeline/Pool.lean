import CallCensus.Pipeline.Worker

/-!
Pools: workers of one kind that share a queue.

* `Pool.turn`: one turn of one of the workers;
* `Pool.load`: a measure that every turn lowers, whatever is sent;
* `Pool.join`: what the workers of a pool come to. Of several failures the one of the
  first worker counts;
* `Pool.run`: all turns of a pool on its own.
-/

namespace CallCensus.Pipeline

variable {σ α β ε : Type}

/-- A pool with the items that are queued for it. -/
structure Pool (σ α β ε : Type) where
  inbox : List α
  workers : List (Worker σ β ε)

namespace Pool

/-- A pool of `n` workers that start in one state. -/
def start (n : Nat) (state : σ) (inbox : List α) : Pool σ α β ε :=
  ⟨inbox, List.replicate n (.waiting state)⟩

/-- Whether all workers have ended. -/
def hasEnded (p : Pool σ α β ε) : Bool :=
  p.workers.all Worker.hasEnded

/-- The room in the queue of a pool. `deserted` says that nobody takes from it any more. -/
def roomIn (deserted : Bool) (capacity : Nat) (p : Pool σ α β ε) : Room :=
  .inQueue deserted capacity p.inbox.length (p.workers.countP Worker.isWaiting)

/-- The room in the queue of a pool, which is deserted when all workers have ended. -/
def room (capacity : Nat) (p : Pool σ α β ε) : Room :=
  p.roomIn p.hasEnded capacity

/-- The same pool with an item more in its queue, if there is one. -/
def receive (p : Pool σ α β ε) (item : Option α) : Pool σ α β ε :=
  { p with inbox := p.inbox ++ item.toList }

/-- One turn of the worker numbered `i`, with the item that it has sent. -/
def turn (stage : Stage σ α β ε) (closed : Bool) (room : Room) (i : Nat) (p : Pool σ α β ε) :
    Option (Pool σ α β ε × Option β) :=
  match p.workers[i]? with
  | none => none
  | some w =>
    match w.turn stage closed room p.inbox with
    | none => none
    | some (w, inbox, sent) => some (⟨inbox, p.workers.set i w⟩, sent)

/-- A worker that the pool does not have has no turn. -/
theorem turn_eq_none_of_le {stage : Stage σ α β ε} {closed : Bool} {room : Room} {i : Nat}
    {p : Pool σ α β ε} (h : p.workers.length ≤ i) : p.turn stage closed room i = none := by
  simp [turn, List.getElem?_eq_none h]

/-- The sum of a number over a list. -/
def sumBy {γ : Type} (f : γ → Nat) (l : List γ) : Nat :=
  l.foldr (fun a n => f a + n) 0

@[simp] theorem sumBy_cons {γ : Type} (f : γ → Nat) (a : γ) (l : List γ) :
    sumBy f (a :: l) = f a + sumBy f l := rfl

/-- The sum of the ranks of the workers. -/
def rank (p : Pool σ α β ε) : Nat :=
  sumBy Worker.rank p.workers

/-- The number of items in the queue and the ranks of the workers. -/
def load (p : Pool σ α β ε) : Nat × Nat :=
  (p.inbox.length, p.rank)

/-- A sum falls when one of its elements does. -/
theorem sumBy_set_lt {γ : Type} (f : γ → Nat) {l : List γ} {i : Nat} {a b : γ}
    (hi : l[i]? = some a) (h : f b < f a) : sumBy f (l.set i b) < sumBy f l := by
  induction l generalizing i with
  | nil => simp at hi
  | cons c l ih =>
    cases i with
    | zero =>
      simp only [List.getElem?_cons_zero, Option.some.injEq] at hi
      subst hi
      simpa using h
    | succ i =>
      have := ih (by simpa using hi)
      simpa using this

/-- Every turn of a worker lowers the load of its pool. -/
theorem turn_decreases {stage : Stage σ α β ε} {closed : Bool} {room : Room} {i : Nat}
    {p p' : Pool σ α β ε} {sent : Option β} (h : p.turn stage closed room i = some (p', sent)) :
    Prod.Lex (· < ·) (· < ·) p'.load p.load := by
  rw [turn] at h
  split at h
  · cases h
  · rename_i w hw
    split at h
    · cases h
    · rename_i w' inbox' sent' ht
      cases h
      rcases Worker.turn_decreases ht with hlt | ⟨rfl, hlt⟩
      · exact .left _ _ hlt
      · exact .right _ (sumBy_set_lt _ hw hlt)

/-- The first failure of the workers of a pool, in the order of the workers. -/
def failure? (p : Pool σ α β ε) : Option (Failure ε) :=
  p.workers.findSome? fun w =>
    match w with
    | .ended (.error f) => some f
    | _ => none

/-- The last states of the workers that have ended well, in the order of the workers. -/
def states (p : Pool σ α β ε) : List σ :=
  p.workers.filterMap fun w =>
    match w with
    | .ended (.ok state) => some state
    | _ => none

/-- What the workers of a pool come to after all have ended: their last states, or the
first failure. -/
def join (p : Pool σ α β ε) : Except (Failure ε) (List σ) :=
  match p.failure? with
  | some f => .error f
  | none => .ok p.states

/-- The turn of the first worker that has one, on a pool whose queue is closed. -/
def next? (stage : Stage σ α β ε) (room : Room) (p : Pool σ α β ε) :
    Option (Pool σ α β ε × Option β) :=
  (List.range p.workers.length).findSome? fun i => p.turn stage true room i

theorem next?_decreases {stage : Stage σ α β ε} {room : Room} {p p' : Pool σ α β ε}
    {sent : Option β} (h : p.next? stage room = some (p', sent)) :
    Prod.Lex (· < ·) (· < ·) p'.load p.load := by
  obtain ⟨i, _, hi⟩ := List.exists_of_findSome?_eq_some h
  exact turn_decreases hi

/-- All turns of a pool on its own, whose queue is closed: the pool after them, and the
items that it has sent, after those in `done`, which are in reverse order. -/
def runOnto (stage : Stage σ α β ε) (room : Room) (done : List β) (p : Pool σ α β ε) :
    Pool σ α β ε × List β :=
  match _h : p.next? stage room with
  | none => (p, done.reverse)
  | some (p', sent) => runOnto stage room (sent.toList ++ done) p'
termination_by p.load
decreasing_by exact next?_decreases _h

/-- All turns of a pool on its own. -/
def run (stage : Stage σ α β ε) (room : Room) (p : Pool σ α β ε) : Pool σ α β ε × List β :=
  runOnto stage room [] p

end Pool

end CallCensus.Pipeline
