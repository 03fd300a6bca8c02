import CallCensus.Proofs.Pool.Sharing

/-!
Pools whose workers keep less in their states.

If a stage does the same whether or not some of a state is forgotten, and then forgets it in the
next state as well, so does a pool at work: a turn that forgets is a turn of the pool that has
forgotten, and every such turn comes about so. Who takes and who sends what is the same in both.

* `Stage.Forgets`: a stage that does without what is forgotten;
* `Worker.mapState`, `Pool.mapState`, `Shift.mapState`: what is left of a shift;
* `Shift.reachable_mapState`: its executions are those of the shift.
-/

namespace CallCensus.Pipeline

variable {σ τ α β ε : Type}

/-- How the processing of an item ends, as far as the state is kept. -/
def Verdict.mapState (f : σ → τ) : Verdict σ ε → Verdict τ ε
  | done state => done (f state)
  | failed e => failed e
  | panicked => panicked

/-- A stage that does, with what `f` keeps of a state, what another does with all of it. -/
structure Stage.Forgets (stage : Stage σ α β ε) (stage' : Stage τ α β ε) (f : σ → τ) : Prop where
  name : stage'.name = stage.name
  process : ∀ state item, stage'.process (f state) item =
    ((stage.process state item).1, (stage.process state item).2.mapState f)

/-- A worker, as far as its state is kept. -/
def Worker.mapState (f : σ → τ) : Worker σ β ε → Worker τ β ε
  | waiting state => waiting (f state)
  | sending pending verdict => sending pending (verdict.mapState f)
  | ended result => ended (result.map f)

/-- A pool, as far as the states of its workers are kept. -/
def Pool.mapState (f : σ → τ) (p : Pool σ α β ε) : Pool τ α β ε :=
  ⟨p.inbox, p.workers.map (.mapState f)⟩

/-- A pool at work, as far as the states of its workers are kept. -/
def Shift.mapState (f : σ → τ) (s : Shift σ α β ε) : Shift τ α β ε :=
  { s with pool := s.pool.mapState f }

variable {stage : Stage σ α β ε} {stage' : Stage τ α β ε} {f : σ → τ} {closed : Bool}
  {room : Room} {i capacity : ℕ} {deserted : Bool}

/-! ### Turns -/

/-- The turn of a worker whose state is not all kept. -/
lemma Worker.turn_mapState (h : stage.Forgets stage' f) (w : Worker σ β ε) (inbox : List α) :
    (w.mapState f).turn stage' closed room inbox =
      (w.turn stage closed room inbox).map fun r => (r.1.mapState f, r.2) := by
  cases w with
  | waiting state =>
      cases inbox with
      | nil => cases closed <;> rfl
      | cons item rest =>
          simp only [mapState, turn, h.process state item, Option.map_some]
  | sending pending verdict =>
      cases pending with
      | nil =>
          cases verdict <;> simp [mapState, turn, Verdict.mapState, conclude, h.name, Except.map]
      | cons item pending => cases room <;> simp [mapState, turn, h.name, Except.map]
  | ended result => rfl

/-- The turn of a pool whose states are not all kept. -/
lemma Pool.turn_mapState (h : stage.Forgets stage' f) (p : Pool σ α β ε) :
    (p.mapState f).turn stage' closed room i =
      (p.turn stage closed room i).map fun r => (r.1.mapState f, r.2) := by
  simp only [turn, mapState, List.getElem?_map]
  cases p.workers[i]? with
  | none => rfl
  | some w =>
      simp only [Option.map_some, Worker.turn_mapState h]
      cases w.turn stage closed room p.inbox with
      | none => rfl
      | some r => simp only [Option.map_some, List.map_set]

namespace Pool

lemma hasEnded_mapState (p : Pool σ α β ε) : (p.mapState f).hasEnded = p.hasEnded := by
  have hended : Worker.hasEnded ∘ Worker.mapState f = (Worker.hasEnded : Worker σ β ε → Bool) :=
    funext fun w => by cases w <;> rfl
  rw [hasEnded, hasEnded, mapState, List.all_map, hended]

lemma room_mapState (p : Pool σ α β ε) : (p.mapState f).room capacity = p.room capacity := by
  have hwaiting : Worker.isWaiting ∘ Worker.mapState f = (Worker.isWaiting : Worker σ β ε → Bool) :=
    funext fun w => by cases w <;> rfl
  rw [room, room, roomIn, roomIn, hasEnded_mapState, mapState, List.countP_map, hwaiting]

end Pool

/-! ### Executions -/

namespace Shift

variable {s t : Shift σ α β ε} {s' t' : Shift τ α β ε} {states : List σ} {items : List α}

lemma mapState_start :
    (start states items : Shift σ α β ε).mapState f = start (states.map f) items := by
  simp only [mapState, start, Pool.mapState, List.map_map]
  rfl

/-- A step of a shift, in which something is forgotten, is a step. -/
lemma Step.mapState (h : stage.Forgets stage' f) (hstep : Step stage capacity deserted s t) :
    Step stage' capacity deserted (s.mapState f) (t.mapState f) := by
  cases hstep with
  | queue item coming hcoming hroom =>
      exact .queue item coming hcoming (by rw [Shift.mapState, Pool.room_mapState, hroom])
  | turn closed room i pool out hclosed hgone hturn =>
      refine .turn closed room i (pool.mapState f) out hclosed hgone ?_
      rw [Shift.mapState, Pool.turn_mapState h, hturn, Option.map_some]

/-- Every step after something was forgotten is a step in which it is forgotten. -/
lemma exists_step_mapState (h : stage.Forgets stage' f)
    (hstep : Step stage' capacity deserted (s.mapState f) t') :
    ∃ t, Step stage capacity deserted s t ∧ t.mapState f = t' := by
  cases hstep with
  | queue item coming hcoming hroom =>
      rw [Shift.mapState, Pool.room_mapState] at hroom
      exact ⟨_, .queue item coming hcoming hroom, rfl⟩
  | turn closed room i pool out hclosed hgone hturn =>
      rw [Shift.mapState, Pool.turn_mapState h] at hturn
      obtain ⟨⟨kept, sent⟩, hkept, heq⟩ := Option.map_eq_some_iff.1 hturn
      cases heq
      exact ⟨_, .turn closed room i kept sent hclosed hgone hkept, rfl⟩

/-- The executions after something was forgotten are those in which it is forgotten. -/
lemma reachable_mapState (h : stage.Forgets stage' f) :
    Relation.ReflTransGen (Step stage' capacity deserted) (s.mapState f) s' ↔
      ∃ t, Relation.ReflTransGen (Step stage capacity deserted) s t ∧ t.mapState f = s' := by
  constructor
  · intro hreach
    induction hreach with
    | refl => exact ⟨s, .refl, rfl⟩
    | tail _ hstep ih =>
        obtain ⟨t, hreach, rfl⟩ := ih
        obtain ⟨u, hnext, rfl⟩ := exists_step_mapState h hstep
        exact ⟨u, hreach.tail hnext, rfl⟩
  · rintro ⟨t, hreach, rfl⟩
    exact hreach.lift (mapState f) fun _ _ => Step.mapState h

end Shift

end CallCensus.Pipeline
