import CallCensus.Proofs.Pipeline.RootCause
import Mathlib.Algebra.BigOperators.Group.List.Basic
import Mathlib.Algebra.Order.Group.Multiset
import Mathlib.Tactic.Abel

/-!
Nothing is lost in a pipeline, and nothing is counted twice.

Where the stages neither fail nor look at their states, a stage is a function from items to
lists of items, and the pipeline as a whole is a function from archives to counts
(`Meaning.outputs`). In between two turns, every item in a queue or in the hands of a worker
stands for the counts that will come of it. A turn only moves items on, so what is still to
come of a pool falls by what it sends, and of nothing else.

* `Stage.Maps`, `Plan.Means`: stages that are functions;
* `Worker.due`, `Pool.due`, `Broadcaster.due`, `countersDue`: what is still to come;
* `Pool.exists_lost`, `exists_lost_broadcaster`: a turn moves items on, or loses some that nobody
  takes;
* `Pool.Regular`: the pools in which no worker fails next.
-/

namespace CallCensus.Pipeline

variable {σ α β γ ε : Type}

/-! ### Stages that are functions -/

/-- A stage that gives the items `f a` for every item `a` with the property `P`, in every
state, and does not fail at it. -/
structure Stage.Maps (stage : Stage σ α β ε) (P : α → Prop) (f : α → List β) : Prop where
  sends : ∀ state a, P a → (stage.process state a).1 = f a
  done : ∀ state a, P a → ∃ next, (stage.process state a).2 = .done next

/-- The functions that the stages of a pipeline stand for. -/
structure Meaning where
  extract : Archive.Reference → List SourceFile
  comments : SourceFile → List SourceFile
  imports : SourceFile → List SourceFile
  literals : SourceFile → List SourceFile
  /-- One for each operator. -/
  counters : List (SourceFile → List CallCount)

namespace Meaning

/-- The counts that come of a file that is broadcast. -/
def ofCleaned (m : Meaning) (file : SourceFile) : List CallCount :=
  m.counters.flatMap fun f => f file

/-- The counts that come of a file with evidence. -/
def ofImported (m : Meaning) (file : SourceFile) : List CallCount :=
  (m.literals file).flatMap m.ofCleaned

/-- The counts that come of a file without comments. -/
def ofUncommented (m : Meaning) (file : SourceFile) : List CallCount :=
  (m.imports file).flatMap m.ofImported

/-- The counts that come of a file from an archive. -/
def ofRaw (m : Meaning) (file : SourceFile) : List CallCount :=
  (m.comments file).flatMap m.ofUncommented

/-- The counts that come of an archive. -/
def ofArchive (m : Meaning) (archive : Archive.Reference) : List CallCount :=
  (m.extract archive).flatMap m.ofRaw

/-- The counts that come of all archives. -/
def outputs (m : Meaning) (archives : List Archive.Reference) : List CallCount :=
  archives.flatMap m.ofArchive

end Meaning

/-- A plan whose stages are functions, at least where the archives are concerned. -/
structure Plan.Means (plan : Plan) (m : Meaning) (archives : List Archive.Reference) : Prop where
  extract : plan.extract.Maps (· ∈ archives) m.extract
  comments : plan.comments.Maps (fun _ => True) m.comments
  imports : plan.imports.Maps (fun _ => True) m.imports
  literals : plan.literals.Maps (fun _ => True) m.literals
  counters : List.Forall₂ (fun stage f => Stage.Maps stage (fun _ => True) f)
    plan.counters m.counters

lemma Plan.Means.exists_counter {plan : Plan} {m : Meaning} {archives : List Archive.Reference}
    (h : plan.Means m archives) {k : ℕ} {stage : Stage Unit SourceFile CallCount Cause}
    (hstage : plan.counters[k]? = some stage) :
    ∃ f, m.counters[k]? = some f ∧ stage.Maps (fun _ => True) f := by
  obtain ⟨hlt, rfl⟩ := List.getElem?_eq_some_iff.1 hstage
  have hlt' : k < m.counters.length := h.counters.length_eq ▸ hlt
  exact ⟨m.counters[k], List.getElem?_eq_getElem hlt', List.Forall₂.get h.counters hlt hlt'⟩

/-! ### What is still to come of a worker -/

namespace Worker

/-- What is still to come of the items that a worker has to send. -/
def due (g : β → List γ) : Worker σ β ε → Multiset γ
  | sending pending _ => ↑(pending.flatMap g)
  | _ => 0

/-- A worker that does not fail next. -/
def Regular (w : Worker σ β ε) : Prop :=
  ∀ pending verdict, w = sending pending verdict → ∃ state, verdict = .done state

namespace Move

variable {stage : Stage σ α β ε} {closed : Bool} {room : Room} {w w' : Worker σ β ε}
  {inbox inbox' : List α} {sent : Option β} {P : α → Prop} {f : α → List γ} {h : α → List β}
  {g : β → List γ}

/-- A worker moves items on, or loses those that it has to send because nobody takes them. -/
lemma exists_lost (hmove : Move stage closed room w inbox w' inbox' sent)
    (hsends : ∀ state, ∀ a ∈ inbox, (stage.process state a).1 = h a)
    (hf : ∀ a, f a = (h a).flatMap g) :
    ∃ lost : Multiset γ, (room ≠ .gone → lost = 0) ∧
      ↑(inbox.flatMap f) + w.due g =
        ↑(inbox'.flatMap f) + w'.due g + ↑(sent.toList.flatMap g) + lost := by
  cases hmove with
  | take state item rest =>
      refine ⟨0, fun _ => rfl, ?_⟩
      simp only [due, hsends state item List.mem_cons_self, ← hf, List.flatMap_cons,
        ← Multiset.coe_add, Option.toList_none, List.flatMap_nil, Multiset.coe_nil]
      abel
  | finish state hclosed => exact ⟨0, fun _ => rfl, by simp [due]⟩
  | send item pending verdict _ _ =>
      refine ⟨0, fun _ => rfl, ?_⟩
      simp only [due, Option.toList_some, List.flatMap_cons, List.flatMap_nil, List.append_nil,
        ← Multiset.coe_add]
      abel
  | lose item pending verdict _ hgone =>
      exact ⟨↑((item :: pending).flatMap g), absurd hgone, by simp [due]⟩
  | goOn state _ => exact ⟨0, fun _ => rfl, by simp [due]⟩
  | fail e _ => exact ⟨0, fun _ => rfl, by simp [due]⟩
  | panic _ => exact ⟨0, fun _ => rfl, by simp [due]⟩

/-- A worker of a stage that does not fail goes on after every item. -/
lemma regular (hmove : Move stage closed room w inbox w' inbox' sent) (hmaps : stage.Maps P h)
    (hP : ∀ a ∈ inbox, P a) (hw : w.Regular) : w'.Regular := by
  intro pending verdict heq
  cases hmove with
  | take state item rest =>
      cases heq
      exact hmaps.done state item (hP item List.mem_cons_self)
  | send item pending' verdict' _ _ =>
      cases heq
      exact hw _ _ rfl
  | _ => cases heq

lemma mem_of_mem {a : α} (hmove : Move stage closed room w inbox w' inbox' sent)
    (ha : a ∈ inbox') : a ∈ inbox := by
  cases hmove with
  | take state item rest => exact List.mem_cons_of_mem _ ha
  | _ => exact ha

end Move

end Worker

/-! ### What is still to come of a pool -/

/-- Replacing an element of a list in a sum. -/
lemma sum_map_set_add {M : Type} [AddCommMonoid M] (f : α → M) {l : List α} {i : ℕ} {a : α}
    (b : α) (hi : l[i]? = some a) :
    ((l.set i b).map f).sum + f a = (l.map f).sum + f b := by
  induction l generalizing i with
  | nil => cases hi
  | cons c l ih =>
      cases i with
      | zero =>
          obtain rfl : c = a := by simpa using hi
          simp only [List.set_cons_zero, List.map_cons, List.sum_cons]
          abel
      | succ i =>
          have h := ih (by simpa using hi)
          simp only [List.set_cons_succ, List.map_cons, List.sum_cons, add_assoc, h]

namespace Pool

variable {stage : Stage σ α β ε} {closed : Bool} {room : Room} {i : ℕ} {p p' : Pool σ α β ε}
  {sent : Option β} {P : α → Prop} {f : α → List γ} {h : α → List β} {g : β → List γ}

/-- What is still to come of the items of a pool, where `f` tells what comes of an item in
its queue, and `g` what comes of one that it sends. -/
def due (f : α → List γ) (g : β → List γ) (p : Pool σ α β ε) : Multiset γ :=
  ↑(p.inbox.flatMap f) + (p.workers.map (Worker.due g)).sum

/-- A pool in which only items with the property `P` are queued, and no worker fails next. -/
structure Regular (P : α → Prop) (p : Pool σ α β ε) : Prop where
  inbox : ∀ a ∈ p.inbox, P a
  workers : ∀ w ∈ p.workers, w.Regular

lemma due_start (n : ℕ) (state : σ) (inbox : List α) :
    (Pool.start n state inbox : Pool σ α β ε).due f g = ↑(inbox.flatMap f) := by
  simp [due, start, Worker.due]

lemma due_receive (item : Option α) :
    (p.receive item).due f g = p.due f g + ↑(item.toList.flatMap f) := by
  simp only [due, inbox_receive, workers_receive, List.flatMap_append, ← Multiset.coe_add]
  abel

/-- A pool moves items on, or loses some because nobody takes them. -/
lemma exists_lost (ht : p.turn stage closed room i = some (p', sent))
    (hsends : ∀ state, ∀ a ∈ p.inbox, (stage.process state a).1 = h a)
    (hf : ∀ a, f a = (h a).flatMap g) :
    ∃ lost : Multiset γ, (room ≠ .gone → lost = 0) ∧
      p.due f g = p'.due f g + ↑(sent.toList.flatMap g) + lost := by
  obtain ⟨w, w', hw, hmove, hset⟩ := exists_move ht
  obtain ⟨lost, hgone, hlost⟩ := hmove.exists_lost hsends hf
  have hsum := sum_map_set_add (Worker.due g) w' hw
  refine ⟨lost, hgone, add_right_cancel (b := w.due g) ?_⟩
  calc p.due f g + w.due g
      = (↑(p.inbox.flatMap f) + w.due g) + (p.workers.map (Worker.due g)).sum := by
        rw [due]; abel
    _ = (↑(p'.inbox.flatMap f) + ↑(sent.toList.flatMap g) + lost) +
          ((p.workers.map (Worker.due g)).sum + w'.due g) := by rw [hlost]; abel
    _ = (↑(p'.inbox.flatMap f) + ↑(sent.toList.flatMap g) + lost) +
          (((p.workers.set i w').map (Worker.due g)).sum + w.due g) := by rw [← hsum]
    _ = p'.due f g + ↑(sent.toList.flatMap g) + lost + w.due g := by rw [due, hset]; abel

/-- A pool that does not lose its consumer moves items on. -/
lemma due_turn (ht : p.turn stage closed room i = some (p', sent)) (hmaps : stage.Maps P h)
    (hp : p.Regular P) (hf : ∀ a, f a = (h a).flatMap g) (hroom : room ≠ .gone) :
    p'.due f g + ↑(sent.toList.flatMap g) = p.due f g := by
  have hsends : ∀ state, ∀ a ∈ p.inbox, (stage.process state a).1 = h a :=
    fun state a ha => hmaps.sends state a (hp.inbox a ha)
  obtain ⟨lost, hgone, hlost⟩ := exists_lost ht hsends hf
  rw [hlost, hgone hroom, add_zero]

/-- Nothing is to come of a pool that has ended, when nothing is in its queue. -/
lemma due_of_hasEnded (hend : p.hasEnded = true) (hinbox : p.inbox = []) : p.due f g = 0 := by
  have hzero : ∀ x ∈ p.workers.map (Worker.due g), x = 0 := by
    intro x hx
    obtain ⟨w, hw, rfl⟩ := List.mem_map.1 hx
    obtain ⟨result, rfl⟩ := Worker.exists_eq_ended (List.all_eq_true.1 hend w hw)
    rfl
  rw [due, hinbox, List.sum_eq_zero hzero]
  simp

namespace Regular

lemma start {n : ℕ} {state : σ} {inbox : List α} (hinbox : ∀ a ∈ inbox, P a) :
    (Pool.start n state inbox : Pool σ α β ε).Regular P where
  inbox := hinbox
  workers := fun w hw pending verdict heq => by
    rw [List.eq_of_mem_replicate hw] at heq
    cases heq

lemma turn (hp : p.Regular P) (ht : p.turn stage closed room i = some (p', sent))
    (hmaps : stage.Maps P h) : p'.Regular P := by
  obtain ⟨w, w', hw, hmove, hset⟩ := exists_move ht
  refine ⟨fun a ha => hp.inbox a (hmove.mem_of_mem ha), fun v hv => ?_⟩
  rw [hset] at hv
  rcases List.mem_or_eq_of_mem_set hv with hold | rfl
  · exact hp.workers v hold
  · exact hmove.regular hmaps hp.inbox (hp.workers w (List.mem_of_getElem? hw))

lemma receive (hp : p.Regular fun _ => True) (item : Option α) :
    (p.receive item).Regular fun _ => True :=
  ⟨fun _ _ => trivial, hp.workers⟩

/-- No failure happens in a regular pool. -/
lemma failing?_eq_none {name : String} (hp : p.Regular P) : p.failing? name i = none := by
  rw [failing?, Option.bind_eq_none_iff]
  intro w hw
  have hregular := hp.workers w (List.mem_of_getElem? hw)
  cases w with
  | waiting state => rfl
  | ended result => rfl
  | sending pending verdict =>
      obtain ⟨state, rfl⟩ := hregular pending verdict rfl
      cases pending <;> rfl

end Regular

end Pool

/-! ### What is still to come of the broadcaster and the counters -/

/-- What is still to come of the item that the broadcaster is about to send. -/
def Broadcaster.due (fs : List (α → List γ)) : Broadcaster α ε → Multiset γ
  | delivering item next _ => ↑((fs.drop next).flatMap fun f => f item)
  | _ => 0

/-- What is still to come of the items of the counters. -/
def countersDue (fs : List (SourceFile → List CallCount))
    (pools : List (Pool Unit SourceFile CallCount Cause)) : Multiset CallCount :=
  (List.zipWith (fun f pool => Pool.due f (fun c => [c]) pool) fs pools).sum

section Counters

variable {fs : List (SourceFile → List CallCount)} {f : SourceFile → List CallCount}
  {pools : List (Pool Unit SourceFile CallCount Cause)}
  {pool : Pool Unit SourceFile CallCount Cause} {k : ℕ}

/-- Nothing is to come of counters of which nothing is to come. -/
lemma countersDue_eq_zero (h : ∀ pool ∈ pools, ∀ f : SourceFile → List CallCount,
    pool.due f (fun c => [c]) = 0) : countersDue fs pools = 0 := by
  induction fs generalizing pools with
  | nil => rfl
  | cons f fs ih =>
      cases pools with
      | nil => rfl
      | cons pool pools =>
          have hrest := ih fun pool' hpool' => h pool' (List.mem_cons_of_mem _ hpool')
          rw [countersDue] at hrest
          rw [countersDue, List.zipWith_cons_cons, List.sum_cons, hrest,
            h pool List.mem_cons_self f, add_zero]

/-- Replacing one of the pools of counters. -/
lemma countersDue_set (new : Pool Unit SourceFile CallCount Cause) (hf : fs[k]? = some f)
    (hpool : pools[k]? = some pool) :
    countersDue fs (pools.set k new) + pool.due f (fun c => [c]) =
      countersDue fs pools + new.due f (fun c => [c]) := by
  induction k generalizing fs pools with
  | zero =>
      obtain ⟨fs, rfl⟩ := List.head?_eq_some_iff.1 (List.head?_eq_getElem?.trans hf)
      obtain ⟨pools, rfl⟩ := List.head?_eq_some_iff.1 (List.head?_eq_getElem?.trans hpool)
      simp only [countersDue, List.set_cons_zero, List.zipWith_cons_cons, List.sum_cons]
      abel
  | succ k ih =>
      cases fs with
      | nil => cases hf
      | cons f' fs =>
          cases pools with
          | nil => cases hpool
          | cons pool' pools =>
              have h := ih (by simpa using hf) (by simpa using hpool)
              simp only [countersDue] at h
              simp only [countersDue, List.set_cons_succ, List.zipWith_cons_cons, List.sum_cons,
                add_assoc, h]

/-- A file that a pool of counters gets is to come. -/
lemma countersDue_deliver (file : SourceFile) (hf : fs[k]? = some f)
    (hpool : pools[k]? = some pool) :
    countersDue fs (State.deliver pools (some (k, file))) = countersDue fs pools + ↑(f file) := by
  have hset : State.deliver pools (some (k, file)) = pools.set k (pool.receive (some file)) := by
    rw [State.deliver, List.modify_eq_set_getElem?, hpool]
    rfl
  refine add_right_cancel (b := pool.due f fun c => [c]) ?_
  rw [hset, countersDue_set _ hf hpool, Pool.due_receive, Option.toList_some,
    List.flatMap_singleton]
  abel

end Counters

/-- The broadcaster moves items on, or loses one because nobody takes it. -/
lemma exists_lost_broadcaster {m : Meaning}
    {pools : List (Pool Unit SourceFile CallCount Cause)} {capacity : ℕ} {closed : Bool}
    {b b' : Broadcaster SourceFile Cause} {cleaned cleaned' : List SourceFile}
    {sent : Option (ℕ × SourceFile)} (hwidth : pools.length = m.counters.length)
    (ht : b.turn closed (pools.map (Pool.room capacity)) cleaned = some (b', cleaned', sent)) :
    ∃ lost : Multiset CallCount, ((∀ pool ∈ pools, pool.room capacity ≠ .gone) → lost = 0) ∧
      (↑(cleaned.flatMap m.ofCleaned) + b.due m.counters +
          countersDue m.counters pools : Multiset CallCount) =
        ↑(cleaned'.flatMap m.ofCleaned) + b'.due m.counters +
          countersDue m.counters (State.deliver pools sent) + lost := by
  cases Broadcaster.move_of_turn ht with
  | take n item rest =>
      refine ⟨0, fun _ => rfl, ?_⟩
      simp only [Broadcaster.due, List.drop_zero, State.deliver, List.flatMap_cons,
        ← Multiset.coe_add, Meaning.ofCleaned]
      abel
  | finish n hclosed => exact ⟨0, fun _ => rfl, (add_zero _).symm⟩
  | goOn item next n _ hroom =>
      have hnext : m.counters.length ≤ next := by
        rwa [List.getElem?_eq_none_iff, List.length_map, hwidth] at hroom
      exact ⟨0, fun _ => rfl, by
        simp [Broadcaster.due, State.deliver, List.drop_eq_nil_of_le hnext]⟩
  | send item next n _ hroom =>
      rw [List.getElem?_map] at hroom
      obtain ⟨pool, hpool, -⟩ := Option.map_eq_some_iff.1 hroom
      have hlt : next < m.counters.length := by
        rw [← hwidth]
        exact (List.getElem?_eq_some_iff.1 hpool).1
      have hf : m.counters[next]? = some m.counters[next] := List.getElem?_eq_getElem hlt
      refine ⟨0, fun _ => rfl, ?_⟩
      rw [countersDue_deliver item hf hpool]
      simp only [Broadcaster.due, List.drop_eq_getElem_cons hlt, List.flatMap_cons,
        ← Multiset.coe_add]
      abel
  | lose item next n _ hroom =>
      rw [List.getElem?_map] at hroom
      obtain ⟨pool, hpool, hgone⟩ := Option.map_eq_some_iff.1 hroom
      refine ⟨(Broadcaster.delivering item next n : Broadcaster SourceFile Cause).due m.counters,
        fun htaken => absurd hgone (htaken pool (List.mem_of_getElem? hpool)), ?_⟩
      simp only [Broadcaster.due, State.deliver]
      abel

end CallCensus.Pipeline
