import CallCensus.Pipeline.State

/-!
Running a pipeline to its end.

Every turn lowers a measure that goes through the stages in their order, so the threads
cannot take turns for ever. The run below gives each turn to the thread that is farthest
down the pipeline.

* `State.measure`, `State.turnWith_decreases`: the measure, and that every turn lowers it,
  whatever the threads are told about the queues;
* `State.run`, `State.turn_run`: turns until no thread has one.
-/

namespace CallCensus.Pipeline.State

/-- The number of files queued for the counters, and the ranks of the counters. -/
def counterLoad (s : State) : Nat × Nat :=
  (Pool.sumBy (fun p => p.inbox.length) s.counters, Pool.sumBy Pool.rank s.counters)

/-- The measure that every turn lowers: what is left to do at each stage, early stages
first. -/
def measure (s : State) :
    (Nat × Nat) × (Nat × Nat) × (Nat × Nat) × (Nat × Nat) × (Nat × Nat) × (Nat × Nat) × Nat × Nat :=
  (s.extract.load, s.comments.load, s.imports.load, s.literals.load,
    (s.cleaned.length, s.broadcaster.rank s.counters.length), s.counterLoad, s.counts.length,
    s.main.rank)

/-- The order of measures: the first stage that differs decides. -/
abbrev Lower : WellFoundedRelation
    ((Nat × Nat) × (Nat × Nat) × (Nat × Nat) × (Nat × Nat) × (Nat × Nat) × (Nat × Nat) × Nat × Nat) :=
  inferInstance

theorem length_deliver (pools : List (Pool Unit SourceFile CallCount Cause))
    (sent : Option (Nat × SourceFile)) : (deliver pools sent).length = pools.length := by
  cases sent <;> simp [deliver]

/-- A sum stays when none of its elements changes. -/
theorem sumBy_set_eq {γ : Type} (f : γ → Nat) {l : List γ} {k : Nat} {a b : γ}
    (hk : l[k]? = some a) (h : f b = f a) : Pool.sumBy f (l.set k b) = Pool.sumBy f l := by
  induction l generalizing k with
  | nil => simp at hk
  | cons c l ih =>
    cases k with
    | zero =>
      simp only [List.getElem?_cons_zero, Option.some.injEq] at hk
      subst hk
      simp [h]
    | succ k =>
      have := ih (by simpa using hk)
      simpa using this

/-- A turn of a counter lowers the load of the counters. -/
theorem counterLoad_set {s : State} {k i : Nat} {stage : Stage Unit SourceFile CallCount Cause}
    {closed : Bool} {room : Room} {pool pool' : Pool Unit SourceFile CallCount Cause}
    {sent : Option CallCount} (hk : s.counters[k]? = some pool)
    (ht : pool.turn stage closed room i = some (pool', sent)) :
    Prod.Lex (· < ·) (· < ·) ({ s with counters := s.counters.set k pool' } : State).counterLoad
      s.counterLoad := by
  have hload := Pool.turn_decreases ht
  simp only [Pool.load] at hload
  rcases Prod.lex_def.1 hload with hlt | ⟨heq, hlt⟩
  · exact .left _ _ (Pool.sumBy_set_lt (fun p => p.inbox.length) hk hlt)
  · have heq' := sumBy_set_eq (fun p : Pool Unit SourceFile CallCount Cause => p.inbox.length) hk heq
    simp only [counterLoad, heq']
    exact .right _ (Pool.sumBy_set_lt Pool.rank hk hlt)

theorem broadcasterTurn_decreases {signals : Signals} {plan : Plan} {s s' : State}
    (h : s.broadcasterTurn signals plan = some s') : Lower.rel s'.measure s.measure := by
  rw [broadcasterTurn] at h
  split at h
  · cases h
  · rename_i b cleaned sent ht
    cases h
    refine .right _ (.right _ (.right _ (.right _ (.left _ _ ?_))))
    simp only [length_deliver]
    have hrank := Broadcaster.turn_decreases ht
    rw [counterRooms, List.length_mapIdx] at hrank
    rcases hrank with hlt | ⟨rfl, hlt⟩
    · exact .left _ _ hlt
    · exact .right _ hlt

theorem counterTurn_decreases {signals : Signals} {plan : Plan} {k i : Nat} {s s' : State}
    (h : s.counterTurn signals plan k i = some s') : Lower.rel s'.measure s.measure := by
  rw [counterTurn] at h
  split at h
  · rename_i hpool
    split at h
    · cases h
    · rename_i ht
      cases h
      refine .right _ (.right _ (.right _ (.right _ ?_)))
      simp only [List.length_set]
      exact .right _ (.left _ _ (counterLoad_set hpool ht))
  · cases h

/-- A turn of the main thread takes a count, or brings the main thread nearer to its end. -/
theorem mainTurn_decreases {signals : Signals} {plan : Plan} {s s' : State}
    (h : s.mainTurn signals plan = some s') : Lower.rel s'.measure s.measure := by
  have mainLower {counts : List CallCount} {main : Main}
      (hlt : Prod.Lex (· < ·) (· < ·) (counts.length, main.rank) (s.counts.length, s.main.rank)) :
      Lower.rel ({ s with counts := counts, main := main } : State).measure s.measure :=
    .right _ (.right _ (.right _ (.right _ (.right _ (.right _ hlt)))))
  rw [mainTurn] at h
  cases hmain : s.main with
  | aggregating total =>
    simp only [hmain] at h
    cases hcounts : s.counts with
    | nil =>
      simp only [hcounts] at h
      have hrank : (Main.joining (.ok total)).rank < s.main.rank := by simp [hmain, Main.rank]
      split at h <;> cases h
      exact mainLower (by rw [hcounts]; exact .right _ hrank)
    | cons c rest =>
      simp only [hcounts] at h
      split at h <;> cases h <;> exact mainLower (.left _ _ (by simp [hcounts]))
  | joining total =>
    simp only [hmain] at h
    have hrank : (Main.returned (s.result total)).rank < s.main.rank := by simp [hmain, Main.rank]
    split at h <;> cases h
    exact mainLower (.right _ hrank)
  | returned result =>
    simp only [hmain] at h
    cases h

/-- Every turn of a thread lowers the measure, whatever it is told. -/
theorem turnWith_decreases {signals : Signals} {plan : Plan} {t : Thread} {s s' : State}
    (h : s.turnWith signals plan t = some s') :
    Lower.rel s'.measure s.measure := by
  cases t with
  | extract i =>
    simp only [turnWith] at h
    split at h <;> rename_i ht <;> cases h
    exact .left _ _ (Pool.turn_decreases ht)
  | comments i =>
    simp only [turnWith] at h
    split at h <;> rename_i ht <;> cases h
    exact .right _ (.left _ _ (Pool.turn_decreases ht))
  | imports i =>
    simp only [turnWith] at h
    split at h <;> rename_i ht <;> cases h
    exact .right _ (.right _ (.left _ _ (Pool.turn_decreases ht)))
  | literals i =>
    simp only [turnWith] at h
    split at h <;> rename_i ht <;> cases h
    exact .right _ (.right _ (.right _ (.left _ _ (Pool.turn_decreases ht))))
  | broadcaster => exact broadcasterTurn_decreases h
  | counter k i => exact counterTurn_decreases h
  | main => exact mainTurn_decreases h

/-- Every turn of a thread lowers the measure. -/
theorem turn_decreases {plan : Plan} {t : Thread} {s s' : State} (h : s.turn plan t = some s') :
    Lower.rel s'.measure s.measure :=
  turnWith_decreases h

/-- The threads of a pipeline, those that are farthest down first. -/
def threads (s : State) : List Thread :=
  .main ::
    (s.counters.zipIdx.flatMap fun (p, k) => (List.range p.workers.length).map (.counter k)) ++
    .broadcaster ::
    ((List.range s.literals.workers.length).map .literals ++
      (List.range s.imports.workers.length).map .imports ++
      (List.range s.comments.workers.length).map .comments ++
      (List.range s.extract.workers.length).map .extract)

/-- The turn of the first thread that has one. -/
def next? (plan : Plan) (s : State) : Option State :=
  s.threads.findSome? fun t => s.turn plan t

/-- The next turn is a turn of some thread. -/
theorem step_of_next? {plan : Plan} {s s' : State} (h : s.next? plan = some s') :
    s.Step plan s' := by
  obtain ⟨t, _, ht⟩ := List.exists_of_findSome?_eq_some h
  exact ⟨t, ht⟩

/-- A thread with a turn is one of the threads of the pipeline. -/
theorem mem_threads_of_turn {plan : Plan} {t : Thread} {s s' : State}
    (h : s.turn plan t = some s') : t ∈ s.threads := by
  have inPool {σ α β : Type} {p : Pool σ α β Cause} {stage : Stage σ α β Cause} {closed : Bool}
      {room : Room} {i : Nat} {r : Pool σ α β Cause × Option β}
      (ht : p.turn stage closed room i = some r) : i < p.workers.length := by
    refine Nat.lt_of_not_le fun hle => ?_
    rw [Pool.turn_eq_none_of_le hle] at ht
    cases ht
  cases t with
  | main => simp [threads]
  | broadcaster => simp [threads]
  | counter k i =>
    simp only [turn, turnWith, counterTurn] at h
    split at h
    · rename_i _ pool _ hpool
      split at h
      · cases h
      · rename_i ht
        have hmem : (pool, k) ∈ s.counters.zipIdx :=
          List.mem_zipIdx_iff_getElem?.2 (by simpa using hpool)
        simp only [threads, List.cons_append, List.mem_cons, List.mem_append, List.mem_flatMap]
        exact .inr (.inl ⟨_, hmem, List.mem_map.2 ⟨i, List.mem_range.2 (inPool ht), rfl⟩⟩)
    · cases h
  | _ i =>
    simp only [turn, turnWith] at h
    split at h
    · cases h
    · rename_i ht
      simpa [threads] using inPool ht

/-- There is a next turn as long as any thread has one. -/
theorem next?_eq_none_iff {plan : Plan} {s : State} :
    s.next? plan = none ↔ ∀ t, s.turn plan t = none := by
  rw [next?, List.findSome?_eq_none_iff]
  refine ⟨fun h t => ?_, fun h t _ => h t⟩
  cases ht : s.turn plan t with
  | none => rfl
  | some s' => rw [← ht]; exact h t (mem_threads_of_turn ht)

/-- The state after all turns. -/
def run (plan : Plan) (s : State) : State :=
  match _h : s.next? plan with
  | none => s
  | some s' => run plan s'
termination_by s.measure
decreasing_by
  obtain ⟨t, ht⟩ := step_of_next? _h
  exact turn_decreases ht

/-- After a run no thread has a turn. -/
theorem turn_run (plan : Plan) (s : State) (t : Thread) : (s.run plan).turn plan t = none := by
  fun_induction run plan s with
  | case1 s h => exact next?_eq_none_iff.1 h t
  | case2 s s' h ih => exact ih

end CallCensus.Pipeline.State
