import CallCensus.Proofs.Pipeline.Flow

/-!
The result of a pipeline whose stages are functions: that of adding up its counts in some
order.

The threads take turns in any order, and so the counts reach the main thread in any order.
But they are always the same, and each of them reaches it once.

* `State.due`: the counts that are still to come;
* `State.Sound`: the states in which nothing has failed or is about to, `Sound.move`;
* `Sound.due_move`: a turn only moves items on;
* `State.Flow`: the invariant of executions, `Flow.move`;
* `exists_order`: what the main thread returns is what comes of adding up all counts, in some
  order, up to the first that is refused.
-/

namespace CallCensus.Pipeline

namespace State

/-- The counts that are still to come. -/
def due (m : Meaning) (s : State) : Multiset CallCount :=
  s.extract.due m.ofArchive m.ofRaw + s.comments.due m.ofRaw m.ofUncommented +
    s.imports.due m.ofUncommented m.ofImported + s.literals.due m.ofImported m.ofCleaned +
    ↑(s.cleaned.flatMap m.ofCleaned) + s.broadcaster.due m.counters +
    countersDue m.counters s.counters + ↑s.counts

/-- At the start all counts of the archives are still to come. -/
lemma due_start (m : Meaning) (workers counterWorkers operators : ℕ) (tallies : List ℕ)
    (archives : List Archive.Reference) (total : Aggregate) :
    (State.start workers counterWorkers operators tallies archives total).due m =
      ↑(m.outputs archives) := by
  have hcounters : countersDue m.counters (List.replicate operators
      (Pool.start counterWorkers () [] : Pool Unit SourceFile CallCount Cause)) = 0 :=
    countersDue_eq_zero fun pool hpool f => by
      rw [List.eq_of_mem_replicate hpool, Pool.due_start]
      rfl
  simp [State.start, due, Pool.due_start, Broadcaster.due, hcounters, Meaning.outputs]

/-- A pipeline in which nothing has failed, and no worker fails next. -/
structure Sound (m : Meaning) (archives : List Archive.Reference) (s : State) : Prop where
  chain : s.Chain
  width : s.counters.length = m.counters.length
  failed : ∀ f, ¬s.Failed f
  extract : s.extract.Regular (· ∈ archives)
  comments : s.comments.Regular fun _ => True
  imports : s.imports.Regular fun _ => True
  literals : s.literals.Regular fun _ => True
  counters : ∀ pool ∈ s.counters, pool.Regular fun _ => True

variable {plan : Plan} {m : Meaning} {archives : List Archive.Reference} {s t : State}
  {thread : Thread}

namespace Sound

/-- No failure happens unless a count is refused. -/
lemma failing?_eq_none (h : s.Sound m archives) (hmove : Move plan s thread t)
    (hrefused : ¬t.main.Refused) : s.failing? plan thread = none := by
  cases hmove with
  | extract i ht => exact h.extract.failing?_eq_none
  | comments i ht => exact h.comments.failing?_eq_none
  | imports i ht => exact h.imports.failing?_eq_none
  | literals i ht => exact h.literals.failing?_eq_none
  | broadcaster ht => rfl
  | counter k i hstage hpool ht =>
      simp only [failing?, hstage, hpool]
      exact (h.counters _ (List.mem_of_getElem? hpool)).failing?_eq_none
  | add hmain hcounts hadd => simp [failing?, refusal?, hmain, hcounts, hadd]
  | refuse hmain hcounts hadd => exact absurd trivial hrefused
  | drain hmain hcounts hended => simp [failing?, refusal?, hmain, hcounts]
  | finish hmain hended => exact absurd trivial hrefused

/-- Nothing fails unless a count is refused. -/
lemma not_failed_move (h : s.Sound m archives) (hmove : Move plan s thread t)
    (hrefused : ¬t.main.Refused) (f : Failure Cause) : ¬t.Failed f := by
  refine (h.chain.move hmove).not_failed_of_forall_isEcho hrefused (fun g hg => ?_) f
  rcases hg.of_move_inv hmove with hold | hnew | hecho
  · exact absurd hold (h.failed g)
  · rw [h.failing?_eq_none hmove hrefused] at hnew
    cases hnew
  · exact hecho

/-- A turn keeps a pipeline sound, unless a count is refused or the main thread returns. -/
lemma move (h : s.Sound m archives) (hmeans : plan.Means m archives)
    (hmove : Move plan s thread t) (hrefused : ¬t.main.Refused) : t.Sound m archives := by
  have hchain := h.chain.move hmove
  have hfailed := h.not_failed_move hmove hrefused
  cases hmove with
  | extract i ht =>
      exact { h with
        chain := hchain
        failed := hfailed
        extract := h.extract.turn ht hmeans.extract
        comments := h.comments.receive _ }
  | comments i ht =>
      exact { h with
        chain := hchain
        failed := hfailed
        comments := h.comments.turn ht hmeans.comments
        imports := h.imports.receive _ }
  | imports i ht =>
      exact { h with
        chain := hchain
        failed := hfailed
        imports := h.imports.turn ht hmeans.imports
        literals := h.literals.receive _ }
  | literals i ht =>
      exact { h with
        chain := hchain
        failed := hfailed
        literals := h.literals.turn ht hmeans.literals }
  | broadcaster ht =>
      refine { h with
        chain := hchain
        failed := hfailed
        width := (length_deliver _ _).trans h.width
        counters := fun pool hpool => ?_ }
      obtain ⟨old, hold, rfl | ⟨k, file, -, rfl⟩⟩ := mem_deliver hpool
      · exact h.counters _ hold
      · exact (h.counters old hold).receive _
  | counter k i hstage hpool ht =>
      refine { h with
        chain := hchain
        failed := hfailed
        width := List.length_set.trans h.width
        counters := fun p hp => ?_ }
      rcases List.mem_or_eq_of_mem_set hp with hold | rfl
      · exact h.counters p hold
      · obtain ⟨f, -, hmaps⟩ := hmeans.exists_counter hstage
        exact (h.counters _ (List.mem_of_getElem? hpool)).turn ht hmaps
  | add hmain hcounts hadd => exact { h with chain := hchain, failed := hfailed }
  | refuse hmain hcounts hadd => exact absurd trivial hrefused
  | drain hmain hcounts hended => exact { h with chain := hchain, failed := hfailed }
  | finish hmain hended => exact absurd trivial hrefused

/-- A turn of the broadcaster moves items on. -/
lemma due_broadcaster {b : Broadcaster SourceFile Cause} {cleaned : List SourceFile}
    {sent : Option (ℕ × SourceFile)} (h : s.Sound m archives)
    (ht : s.broadcaster.turn s.literals.hasEnded (s.counters.map (Pool.room plan.capacity))
      s.cleaned = some (b, cleaned, sent)) :
    (↑(cleaned.flatMap m.ofCleaned) + b.due m.counters +
        countersDue m.counters (deliver s.counters sent) : Multiset CallCount) =
      ↑(s.cleaned.flatMap m.ofCleaned) + s.broadcaster.due m.counters +
        countersDue m.counters s.counters := by
  have hup := (Broadcaster.move_of_turn ht).hasEnded_eq_false
  obtain ⟨lost, hgone, hlost⟩ := exists_lost_broadcaster h.width ht
  have hnone : lost = 0 := hgone fun pool hpool hroom => by
    obtain ⟨f, hf⟩ := (h.chain.counters pool hpool).exists_failed_of_room hup hroom
    exact absurd (.counter pool hpool hf) (h.failed f)
  rw [hnone, add_zero] at hlost
  exact hlost.symm

/-- A turn moves items on, unless it is one of the main thread, which takes counts away. -/
lemma due_move (h : s.Sound m archives) (hmeans : plan.Means m archives)
    (hmove : Move plan s thread t) (hrefused : ¬s.main.Refused) (hthread : thread ≠ .main) :
    t.due m = s.due m := by
  cases hmove with
  | @extract i pool sent ht =>
      have hup := Pool.hasEnded_eq_false_of_turn ht
      have hroom : s.comments.room plan.capacity ≠ .gone :=
        h.chain.comments.room_ne_gone hup fun f hf => h.failed f (.comments hf)
      have hdue : pool.due m.ofArchive m.ofRaw + ↑(sent.toList.flatMap m.ofRaw) =
          s.extract.due m.ofArchive m.ofRaw :=
        Pool.due_turn ht hmeans.extract h.extract (fun _ => rfl) hroom
      simp only [due, Pool.due_receive, ← hdue]
      abel
  | @comments i pool sent ht =>
      have hup := Pool.hasEnded_eq_false_of_turn ht
      have hroom : s.imports.room plan.capacity ≠ .gone :=
        h.chain.imports.room_ne_gone hup fun f hf => h.failed f (.imports hf)
      have hdue : pool.due m.ofRaw m.ofUncommented + ↑(sent.toList.flatMap m.ofUncommented) =
          s.comments.due m.ofRaw m.ofUncommented :=
        Pool.due_turn ht hmeans.comments h.comments (fun _ => rfl) hroom
      simp only [due, Pool.due_receive, ← hdue]
      abel
  | @imports i pool sent ht =>
      have hup := Pool.hasEnded_eq_false_of_turn ht
      have hroom : s.literals.room plan.capacity ≠ .gone :=
        h.chain.literals.room_ne_gone hup fun f hf => h.failed f (.literals hf)
      have hdue : pool.due m.ofUncommented m.ofImported + ↑(sent.toList.flatMap m.ofImported) =
          s.imports.due m.ofUncommented m.ofImported :=
        Pool.due_turn ht hmeans.imports h.imports (fun _ => rfl) hroom
      simp only [due, Pool.due_receive, ← hdue]
      abel
  | @literals i pool sent ht =>
      have hup := Pool.hasEnded_eq_false_of_turn ht
      have hroom : s.broadcaster.room plan.capacity s.cleaned.length ≠ .gone := fun hgone => by
        obtain ⟨f, hf⟩ := h.chain.exists_broadcaster_failed hup hgone
        exact h.failed f (.broadcaster hf)
      have hdue : pool.due m.ofImported m.ofCleaned + ↑(sent.toList.flatMap m.ofCleaned) =
          s.literals.due m.ofImported m.ofCleaned :=
        Pool.due_turn ht hmeans.literals h.literals (fun _ => rfl) hroom
      simp only [due, List.flatMap_append, ← Multiset.coe_add, ← hdue]
      abel
  | broadcaster ht =>
      have hdue := h.due_broadcaster ht
      refine congrArg (· + (s.counts : Multiset CallCount)) ?_
      simpa only [add_assoc] using congrArg (s.extract.due m.ofArchive m.ofRaw +
        s.comments.due m.ofRaw m.ofUncommented + s.imports.due m.ofUncommented m.ofImported +
        s.literals.due m.ofImported m.ofCleaned + ·) hdue
  | @counter k i stage pool pool' sent hstage hpool ht =>
      have hmem := List.mem_of_getElem? hpool
      have hup := Pool.hasEnded_eq_false_of_turn ht
      obtain ⟨f, hf, hmaps⟩ := hmeans.exists_counter hstage
      have hroom : s.main.room plan.capacity s.counts.length ≠ .gone := fun hgone =>
        hrefused (h.chain.refused_of_room hmem hup hgone)
      have hdue : pool'.due f (fun c => [c]) + ↑(sent.toList.flatMap fun c => [c]) =
          pool.due f fun c => [c] :=
        Pool.due_turn ht hmaps (h.counters _ hmem) (fun a => by simp) hroom
      have hset : countersDue m.counters (s.counters.set k pool') + ↑sent.toList =
          countersDue m.counters s.counters := by
        refine add_right_cancel (b := pool'.due f fun c => [c]) ?_
        rw [← countersDue_set pool' hf hpool, ← hdue, List.flatMap_singleton']
        abel
      simp only [due, ← Multiset.coe_add, ← hset]
      abel
  | _ => exact absurd rfl hthread

/-- Nothing is to come of a pool that has ended and not failed. -/
lemma pool_due_eq_zero {σ α β γ : Type} {pool : Pool σ α β Cause} {up : Bool} {down : Prop}
    {f : α → List γ} {g : β → List γ} (hlinked : pool.Linked up down)
    (hend : pool.hasEnded = true) (hfailed : ∀ f, ¬pool.Failed f) : pool.due f g = 0 := by
  rcases hlinked.failed_or_drained hend with ⟨f, hf⟩ | ⟨-, hinbox⟩
  · exact absurd hf (hfailed f)
  · exact Pool.due_of_hasEnded hend hinbox

/-- Nothing is to come when all threads have ended. -/
lemma due_eq_zero (h : s.Sound m archives) {total : Aggregate}
    (hmain : s.main = .joining (.ok total)) (hended : s.othersEnded = true) : s.due m = 0 := by
  simp only [othersEnded, Bool.and_eq_true] at hended
  obtain ⟨⟨⟨⟨⟨hextract, hcomments⟩, himports⟩, hliterals⟩, hbroadcaster⟩, hcounters⟩ := hended
  have hcounts : s.counts = [] := (h.chain.counts total hmain).2
  have hdelivered : s.broadcaster.due m.counters = 0 ∧ s.cleaned = [] := by
    rcases h.chain.failed_or_drained hbroadcaster with ⟨f, hf⟩ | ⟨⟨n, hn⟩, -, hcleaned⟩
    · exact absurd (.broadcaster hf) (h.failed f)
    · exact ⟨by rw [hn]; rfl, hcleaned⟩
  have hcounters : countersDue m.counters s.counters = 0 := by
    refine countersDue_eq_zero fun pool hpool f => ?_
    exact pool_due_eq_zero (h.chain.counters pool hpool) (List.all_eq_true.1 hcounters pool hpool)
      fun f hf => h.failed f (.counter pool hpool hf)
  rw [due, pool_due_eq_zero h.chain.extract hextract fun f hf => h.failed f (.extract hf),
    pool_due_eq_zero h.chain.comments hcomments fun f hf => h.failed f (.comments hf),
    pool_due_eq_zero h.chain.imports himports fun f hf => h.failed f (.imports hf),
    pool_due_eq_zero h.chain.literals hliterals fun f hf => h.failed f (.literals hf),
    hdelivered.1, hdelivered.2, hcounters, hcounts]
  simp

end Sound

/-! ### Executions -/

/-- The invariant of executions that add up counts from `total` on. The counts that are
already added up and those that are still to come are those of the archives; once a count is
refused, some order of the latter leads to that refusal. -/
inductive Flow (plan : Plan) (m : Meaning) (archives : List Archive.Reference)
    (total : Aggregate) (s : State) : Prop
  | adding (now : Aggregate) (hmain : s.main = .aggregating now ∨ s.main = .joining (.ok now))
      (sound : s.Sound m archives) (added : List CallCount)
      (hadded : added.foldlM plan.add total = .ok now)
      (hdue : (added : Multiset CallCount) + s.due m = ↑(m.outputs archives))
  | refused (e : Cause) (hmain : s.main = .joining (.error e)) (counts : List CallCount)
      (hperm : counts.Perm (m.outputs archives))
      (hcounts : counts.foldlM plan.add total = .error e)
  | returned (result : Except (Failure Cause) Outcome) (hmain : s.main = .returned result)
      (counts : List CallCount) (hperm : counts.Perm (m.outputs archives))
      (hcounts : result.map Prod.fst = (counts.foldlM plan.add total).mapError .cause)

namespace Flow

variable {total : Aggregate}

/-- The invariant at the start. -/
lemma start {workers counterWorkers operators : ℕ} {tallies : List ℕ}
    (hmeans : plan.Means m archives) (hoperators : plan.counters.length = operators)
    (hw : 1 ≤ workers) (hc : 1 ≤ counterWorkers) :
    Flow plan m archives total
      (.start workers counterWorkers operators tallies archives total) := by
  subst hoperators
  refine .adding total (.inl rfl) ⟨.start hw hc, ?_, fun f => not_failed_start, .start fun _ h => h,
    .start (by simp), .start (by simp), .start (by simp), fun pool hpool => ?_⟩ [] rfl ?_
  · simp [State.start, hmeans.counters.length_eq]
  · rw [List.eq_of_mem_replicate hpool]
    exact .start (by simp)
  · rw [due_start, Multiset.coe_nil, zero_add]

lemma due_of_counts {c : CallCount} {rest : List CallCount} (main : Main)
    (hcounts : s.counts = c :: rest) :
    s.due m = {c} + ({ s with counts := rest, main := main } : State).due m := by
  simp only [State.due, hcounts, ← Multiset.singleton_add, ← Multiset.cons_coe]
  abel

/-- A turn of the main thread keeps the invariant as long as no count was refused. -/
lemma move_main {now : Aggregate} {added : List CallCount}
    (hmain : s.main = .aggregating now ∨ s.main = .joining (.ok now))
    (sound : s.Sound m archives) (hadded : added.foldlM plan.add total = .ok now)
    (hdue : (added : Multiset CallCount) + s.due m = ↑(m.outputs archives))
    (hmeans : plan.Means m archives) (hmove : Move plan s .main t) :
    Flow plan m archives total t := by
  cases hmove with
  | @add now' now'' c rest hmain' hcounts hadd =>
      obtain rfl : now' = now := by simpa [hmain'] using hmain
      have ht : (({ s with counts := rest, main := .aggregating now'' } : State).Sound
          m archives) := sound.move hmeans (.add hmain' hcounts hadd) id
      refine .adding now'' (.inl rfl) ht (added ++ [c]) ?_ ?_
      · rw [List.foldlM_append, hadded]
        simp [bind, Except.bind, hadd, pure, Except.pure]
      · rw [due_of_counts (.aggregating now'') hcounts] at hdue
        rw [← hdue, ← Multiset.coe_add, ← Multiset.coe_singleton, add_assoc]
  | @refuse now' c rest e hmain' hcounts hadd =>
      obtain rfl : now' = now := by simpa [hmain'] using hmain
      rw [due_of_counts (.joining (.error e)) hcounts] at hdue
      obtain ⟨later, hlater⟩ : ∃ later : List CallCount, (later : Multiset CallCount) =
          ({ s with counts := rest, main := .joining (.error e) } : State).due m :=
        Quot.exists_rep _
      refine .refused e rfl (added ++ c :: later) ?_ ?_
      · rw [← Multiset.coe_eq_coe, ← hdue, ← hlater, ← Multiset.coe_add, ← Multiset.cons_coe,
          Multiset.singleton_add]
      · rw [List.foldlM_append, hadded]
        simp [bind, Except.bind, hadd]
  | @drain now' hmain' hcounts hended =>
      obtain rfl : now' = now := by simpa [hmain'] using hmain
      exact .adding now' (.inr rfl) (sound.move hmeans (.drain hmain' hcounts hended) id) added
        hadded hdue
  | @finish result hmain' hended =>
      obtain rfl : result = .ok now := by simpa [hmain'] using hmain
      rw [sound.due_eq_zero hmain' hended, add_zero] at hdue
      refine .returned _ rfl added (Multiset.coe_eq_coe.1 hdue) ?_
      rw [result_ok now sound.failed, hadded]
      rfl

/-- Every turn keeps the invariant. -/
lemma move (h : Flow plan m archives total s) (hmeans : plan.Means m archives)
    (hmove : Move plan s thread t) : Flow plan m archives total t := by
  cases h with
  | adding now hmain sound added hadded hdue =>
      have hrefused : ¬s.main.Refused := by
        rcases hmain with hmain | hmain <;> simp [hmain, Main.Refused]
      by_cases hthread : thread = .main
      · subst hthread
        exact move_main hmain sound hadded hdue hmeans hmove
      · have hmain' := hmove.main_eq hthread
        refine .adding now (by rwa [hmain']) (sound.move hmeans hmove (by rwa [hmain'])) added
          hadded ?_
        rw [sound.due_move hmeans hmove hrefused hthread, hdue]
  | refused e hmain counts hperm hcounts =>
      by_cases hthread : thread = .main
      · subst hthread
        cases hmove with
        | finish hmain' hended =>
            obtain rfl := Main.joining.inj (hmain'.symm.trans hmain)
            refine .returned _ rfl counts hperm ?_
            rw [result_error, hcounts]
            rfl
        | add hmain' => simp [hmain] at hmain'
        | refuse hmain' => simp [hmain] at hmain'
        | drain hmain' => simp [hmain] at hmain'
      · exact .refused e ((hmove.main_eq hthread).trans hmain) counts hperm hcounts
  | returned result hmain counts hperm hcounts =>
      by_cases hthread : thread = .main
      · subst hthread
        cases hmove with
        | finish hmain' => simp [hmain] at hmain'
        | add hmain' => simp [hmain] at hmain'
        | refuse hmain' => simp [hmain] at hmain'
        | drain hmain' => simp [hmain] at hmain'
      · exact .returned result ((hmove.main_eq hthread).trans hmain) counts hperm hcounts

end Flow

end State

/-- **The result does not depend on the schedule.** When the stages of a pipeline are
functions, what its main thread returns is what comes of adding up the counts of all archives
in some order, up to the first that is refused, whatever the order of turns has been. -/
theorem exists_order {plan : Plan} {m : Meaning} {archives : List Archive.Reference}
    (hmeans : plan.Means m archives) {workers counterWorkers operators : ℕ}
    (hoperators : plan.counters.length = operators) (hw : 1 ≤ workers)
    (hc : 1 ≤ counterWorkers) {tallies : List ℕ} {total : Aggregate} {s : State}
    (hreach : Relation.ReflTransGen (State.Step plan)
      (.start workers counterWorkers operators tallies archives total) s)
    {result : Except (Failure Cause) Outcome} (hmain : s.main = .returned result) :
    ∃ counts : List CallCount, counts.Perm (m.outputs archives) ∧
      result.map Prod.fst = (counts.foldlM plan.add total).mapError .cause := by
  have hflow : s.Flow plan m archives total := by
    clear hmain
    induction hreach with
    | refl => exact .start hmeans hoperators hw hc
    | tail _ hstep ih =>
        obtain ⟨thread, hturn⟩ := hstep
        exact ih.move hmeans (State.move_of_turn hturn)
  cases hflow with
  | adding now hmain' => rcases hmain' with hmain' | hmain' <;> simp [hmain] at hmain'
  | refused e hmain' => simp [hmain] at hmain'
  | returned result' hmain' counts hperm hcounts =>
      obtain rfl := Main.returned.inj (hmain.symm.trans hmain')
      exact ⟨counts, hperm, hcounts⟩

end CallCensus.Pipeline
