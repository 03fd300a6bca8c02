import CallCensus.Pipeline.Handles
import CallCensus.Proofs.Pipeline.Executions

/-!
The ends of the queues tell the truth.

The main thread hands out the ends of the queues when it starts the other threads, and every
thread lets go of its ends when it ends. So somebody holds an end to send to a queue exactly
as long as one of the threads that send to it runs, and the same is true of the ends to take
from a queue: no end is forgotten, and none is given up too early. Therefore a pipeline that
looks at the holders of the ends does what a pipeline does that looks at the threads.

* `Handles.setUp_eq`: who holds the ends after all threads have been started;
* `Held.Sound`: the invariant, with `Sound.start` and `Sound.after`;
* `Held.Sound.turn_eq`: the turns of the two pipelines are the same;
* `HeldStep`: one step of a pipeline with ends, whose stages may do anything;
* `exists_held_iff`: the two have the same executions.
-/

namespace CallCensus.Pipeline

variable {σ α β ε : Type}

/-! ### Starting the threads -/

namespace Handles

variable {h : Handles} {threads : List Thread} {q input output : Queue} {counterWorkers n : ℕ}

/-- Who holds the ends of the queues when all threads run. -/
def ofRunning (workers counterWorkers operators : ℕ) : Handles
  | .archives => ⟨[], (List.range workers).map .extract⟩
  | .raw => ⟨(List.range workers).map .extract, (List.range workers).map .comments⟩
  | .uncommented => ⟨(List.range workers).map .comments, (List.range workers).map .imports⟩
  | .imported => ⟨(List.range workers).map .imports, (List.range workers).map .literals⟩
  | .cleaned => ⟨(List.range workers).map .literals, [.broadcaster]⟩
  | .operator k =>
    if k < operators then ⟨[.broadcaster], counterThreads counterWorkers k⟩ else ⟨[], []⟩
  | .counts => ⟨(List.range operators).flatMap (counterThreads counterWorkers), [.main]⟩

@[simp] lemma update_same (f : Holders → Holders) : h.update q f q = f (h q) :=
  if_pos rfl

@[simp] lemma update_of_ne {q' : Queue} (f : Holders → Holders) (hq : q' ≠ q) :
    h.update q f q' = h q' :=
  if_neg hq

/-- A stage takes over the queue of which the main thread has kept the end to take from, and
the main thread keeps such an end of the next one. -/
lemma startStage_input (hne : input ≠ output) (hinput : h input = ⟨threads, [.main]⟩)
    (stage : List Thread) : startStage stage input output h input = ⟨threads, stage⟩ := by
  simp [startStage, spawnPool, create, shareReceiver, shareSender, dropSender, dropReceiver, hne,
    hinput]

lemma startStage_output (hne : input ≠ output) (stage : List Thread) :
    startStage stage input output h output = ⟨stage, [.main]⟩ := by
  simp [startStage, spawnPool, create, shareReceiver, shareSender, dropSender, dropReceiver,
    hne.symm]

lemma startStage_of_ne (hinput : q ≠ input) (houtput : q ≠ output) (stage : List Thread) :
    startStage stage input output h q = h q := by
  simp [startStage, spawnPool, create, shareReceiver, shareSender, dropSender, dropReceiver,
    hinput, houtput]

/-- The counters of the first operators have been started. -/
lemma startCounters_operator (k : ℕ) :
    startCounters counterWorkers n h (.operator k) =
      if k < n then ⟨[.main], counterThreads counterWorkers k⟩ else h (.operator k) := by
  induction n with
  | zero => simp [startCounters]
  | succ n ih =>
      rw [startCounters]
      by_cases hk : k = n
      · subst hk
        simp [spawnPool, create, cloneSender, shareReceiver, shareSender, dropSender, dropReceiver]
      · have hlt : k < n + 1 ↔ k < n := by omega
        simp [spawnPool, create, cloneSender, shareReceiver, shareSender, dropSender, dropReceiver,
          hk, hlt, ih]

lemma startCounters_counts (hcounts : h .counts = ⟨[.main], [.main]⟩) :
    startCounters counterWorkers n h .counts =
      ⟨.main :: (List.range n).flatMap (counterThreads counterWorkers), [.main]⟩ := by
  induction n with
  | zero => simp [startCounters, hcounts]
  | succ n ih =>
      simp [startCounters, spawnPool, create, cloneSender, shareReceiver, shareSender, dropSender,
        dropReceiver, ih, List.range_succ]

lemma startCounters_of_ne (hoperator : ∀ k, q ≠ .operator k) (hcounts : q ≠ .counts) :
    startCounters counterWorkers n h q = h q := by
  induction n with
  | zero => rfl
  | succ n ih =>
      simp [startCounters, spawnPool, create, cloneSender, shareReceiver, shareSender, dropSender,
        dropReceiver, hoperator, hcounts, ih]

/-- The broadcaster takes over what the main thread has kept of the queues of counters. -/
lemma giveOperators_operator (k : ℕ) :
    giveOperators n h (.operator k) =
      if k < n then
        ⟨((h (.operator k)).senders ++ [Thread.broadcaster]).erase .main, (h (.operator k)).receivers⟩
      else h (.operator k) := by
  induction n with
  | zero => simp [giveOperators]
  | succ n ih =>
      rw [giveOperators]
      by_cases heq : k = n
      · subst heq
        simp [shareSender, dropSender, ih]
      · have hlt : k < n + 1 ↔ k < n := by omega
        simp [shareSender, dropSender, heq, hlt, ih]

lemma giveOperators_of_ne (hoperator : ∀ k, q ≠ .operator k) : giveOperators n h q = h q := by
  induction n with
  | zero => rfl
  | succ n ih => simp [giveOperators, shareSender, dropSender, hoperator, ih]

/-- After the stages before the broadcaster have been started, the main thread has only kept
the end from which the broadcaster will take. -/
lemma startStages_eq (workers : ℕ) :
    startStages workers = fun q =>
      match q with
      | .cleaned => ⟨(List.range workers).map .literals, [.main]⟩
      | .operator _ | .counts => ⟨[], []⟩
      | q => ofRunning workers 0 0 q := by
  funext q
  cases q with
  | archives =>
      simp only [startStages, startStage_of_ne, ne_eq, reduceCtorEq, not_false_eq_true]
      exact startStage_input (by simp) rfl _
  | raw =>
      simp only [startStages, startStage_of_ne, ne_eq, reduceCtorEq, not_false_eq_true]
      exact startStage_input (by simp) (startStage_output (by simp) _) _
  | uncommented =>
      simp only [startStages, startStage_of_ne, ne_eq, reduceCtorEq, not_false_eq_true]
      exact startStage_input (by simp) (startStage_output (by simp) _) _
  | imported => exact startStage_input (by simp) (startStage_output (by simp) _) _
  | cleaned => exact startStage_output (by simp) _
  | operator k => simp [startStages, startStage_of_ne, dropSender, create]
  | counts => simp [startStages, startStage_of_ne, dropSender, create]

/-- After the main thread has started all threads, every thread holds the ends that it needs
and nobody else holds any. -/
theorem setUp_eq (workers counterWorkers operators : ℕ) :
    setUp workers counterWorkers operators = ofRunning workers counterWorkers operators := by
  funext q
  cases q with
  | operator k =>
      by_cases hk : k < operators <;>
        simp [setUp, ofRunning, shareReceiver, dropReceiver, dropSender, create,
          giveOperators_operator, startCounters_operator, startStages_eq, hk]
  | counts =>
      simp [setUp, ofRunning, shareReceiver, dropReceiver, dropSender, create, giveOperators_of_ne,
        startCounters_counts]
  | _ =>
      simp [setUp, ofRunning, shareReceiver, dropReceiver, dropSender, create, giveOperators_of_ne,
        startCounters_of_ne, startStages_eq]

lemma mem_receivers_ofRunning_operator {workers operators k : ℕ} {t : Thread} :
    t ∈ (ofRunning workers counterWorkers operators (.operator k)).receivers ↔
      k < operators ∧ ∃ i < counterWorkers, .counter k i = t := by
  rw [ofRunning]
  split_ifs with hk <;> simp [hk, counterThreads]

lemma mem_senders_ofRunning_operator {workers operators k : ℕ} {t : Thread} :
    t ∈ (ofRunning workers counterWorkers operators (.operator k)).senders ↔
      k < operators ∧ t = .broadcaster := by
  rw [ofRunning]
  split_ifs with hk <;> simp [hk]

@[simp] lemma mem_senders_release {t u : Thread} :
    u ∈ (h.release t q).senders ↔ u ∈ (h q).senders ∧ u ≠ t := by
  simp [release]

@[simp] lemma mem_receivers_release {t u : Thread} :
    u ∈ (h.release t q).receivers ↔ u ∈ (h q).receivers ∧ u ≠ t := by
  simp [release]

end Handles

/-! ### Who runs -/

namespace Pool

variable {stage : Stage σ α β ε} {closed : Bool} {room : Room} {i j : ℕ} {p p' : Pool σ α β ε}
  {sent : Option β}

/-- A pool has ended when none of its workers runs. -/
lemma hasEnded_iff : p.hasEnded = true ↔ ∀ i, p.runs i = false := by
  rw [hasEnded, List.all_eq_true]
  constructor
  · intro h i
    rw [runs]
    split
    · rename_i w hw
      simp [h w (List.mem_of_getElem? hw)]
    · rfl
  · intro h w hw
    obtain ⟨i, hi⟩ := List.mem_iff_getElem?.1 hw
    simpa [runs, hi] using h i

lemma runs_start (n : ℕ) (state : σ) (inbox : List α) :
    (start n state inbox : Pool σ α β ε).runs i = decide (i < n) := by
  rw [runs, start, List.getElem?_replicate]
  by_cases hi : i < n <;> simp [hi, Worker.hasEnded]

@[simp] lemma runs_receive (item : Option α) : (p.receive item).runs i = p.runs i := rfl

lemma runs_of_turn (h : p.turn stage closed room i = some (p', sent)) : p.runs i = true := by
  obtain ⟨w, w', hw, hmove, -⟩ := exists_move h
  simp [runs, hw, hmove.hasEnded_eq_false]

lemma runs_turn_of_ne (h : p.turn stage closed room i = some (p', sent)) (hne : j ≠ i) :
    p'.runs j = p.runs j := by
  obtain ⟨w, w', -, -, hset⟩ := exists_move h
  rw [runs, runs, hset, List.getElem?_set_ne hne.symm]

end Pool

namespace State

variable {plan : Plan} {s t : State} {thread : Thread}

/-- At the start all threads keep their ends. -/
lemma keeps_start {workers counterWorkers operators : ℕ} {tallies : List ℕ}
    {archives : List Archive.Reference} {total : Aggregate} (u : Thread) :
    (start workers counterWorkers operators tallies archives total).keeps u =
      match u with
      | .extract i | .comments i | .imports i | .literals i => decide (i < workers)
      | .broadcaster | .main => true
      | .counter k i => decide (k < operators ∧ i < counterWorkers) := by
  cases u with
  | counter k i =>
      simp only [keeps, start, List.getElem?_replicate]
      by_cases hk : k < operators <;> simp [hk, Pool.runs_start]
  | broadcaster => rfl
  | main => rfl
  | _ i => exact Pool.runs_start _ _ _

/-- A file that is sent to a pool of counters ends none of them. -/
lemma keeps_deliver (sent : Option (ℕ × SourceFile)) (k i : ℕ) :
    ({ s with counters := deliver s.counters sent } : State).keeps (.counter k i) =
      s.keeps (.counter k i) := by
  cases sent with
  | none => rfl
  | some sent =>
      simp only [keeps, deliver, List.getElem?_modify]
      cases s.counters[k]? with
      | none => rfl
      | some pool => by_cases hk : sent.1 = k <;> simp [hk]

/-- A turn of a thread does not make another one let go of its ends. -/
lemma Move.keeps_of_ne (h : Move plan s thread t) {u : Thread} (hne : u ≠ thread) :
    t.keeps u = s.keeps u := by
  cases h with
  | extract i ht =>
      cases u with
      | extract j => exact Pool.runs_turn_of_ne ht (by simpa using hne)
      | _ => rfl
  | comments i ht =>
      cases u with
      | comments j => exact Pool.runs_turn_of_ne ht (by simpa using hne)
      | _ => rfl
  | imports i ht =>
      cases u with
      | imports j => exact Pool.runs_turn_of_ne ht (by simpa using hne)
      | _ => rfl
  | literals i ht =>
      cases u with
      | literals j => exact Pool.runs_turn_of_ne ht (by simpa using hne)
      | _ => rfl
  | @broadcaster b cleaned sent ht =>
      cases u with
      | broadcaster => exact absurd rfl hne
      | counter k i => exact keeps_deliver sent k i
      | _ => rfl
  | counter k i hstage hpool ht =>
      cases u with
      | counter k' i' =>
          simp only [keeps]
          by_cases hk : k' = k
          · subst hk
            have hlt := (List.getElem?_eq_some_iff.1 hpool).1
            rw [List.getElem?_set_self hlt, hpool]
            exact Pool.runs_turn_of_ne ht (by simpa using hne)
          · rw [List.getElem?_set_ne (Ne.symm hk)]
      | _ => rfl
  | _ =>
      cases u with
      | main => exact absurd rfl hne
      | _ => rfl

/-- A thread that keeps its ends after a turn has kept them before it. -/
lemma Move.keeps_of_keeps (h : Move plan s thread t) (hkeeps : t.keeps thread = true) :
    s.keeps thread = true := by
  cases h with
  | extract i ht => exact Pool.runs_of_turn ht
  | comments i ht => exact Pool.runs_of_turn ht
  | imports i ht => exact Pool.runs_of_turn ht
  | literals i ht => exact Pool.runs_of_turn ht
  | broadcaster ht => simp [keeps, (Broadcaster.move_of_turn ht).hasEnded_eq_false]
  | counter k i hstage hpool ht => simp [keeps, hpool, Pool.runs_of_turn ht]
  | add hmain hcounts hadd => simp [keeps, hmain, Main.isAggregating]
  | refuse hmain hcounts hadd => simp [keeps, hmain, Main.isAggregating]
  | drain hmain hcounts hended => simp [keeps, hmain, Main.isAggregating]
  | finish hmain hended => simp [keeps, Main.isAggregating] at hkeeps

/-- A pool has ended when all threads of its workers have let go of their ends. -/
lemma forall_keeps_eq_false_iff {p : Pool σ α β ε} {P : Thread → Prop} (worker : ℕ → Thread)
    (hP : ∀ u, P u ↔ ∃ i, worker i = u) (hkeeps : ∀ i, s.keeps (worker i) = p.runs i) :
    (∀ u, P u → s.keeps u = false) ↔ p.hasEnded = true := by
  rw [Pool.hasEnded_iff]
  constructor
  · intro h i
    rw [← hkeeps]
    exact h _ ((hP _).2 ⟨i, rfl⟩)
  · intro h u hu
    obtain ⟨i, rfl⟩ := (hP u).1 hu
    rw [hkeeps]
    exact h i

end State

/-! ### The invariant -/

/-- The queue that a thread takes from. -/
def Thread.takesFrom : Thread → Queue
  | extract _ => .archives
  | comments _ => .raw
  | imports _ => .uncommented
  | literals _ => .imported
  | broadcaster => .cleaned
  | counter k _ => .operator k
  | main => .counts

/-- The queues that a thread sends to. -/
def Thread.SendsTo (operators : ℕ) : Thread → Queue → Prop
  | extract _, q => q = .raw
  | comments _, q => q = .uncommented
  | imports _, q => q = .imported
  | literals _, q => q = .cleaned
  | broadcaster, q => ∃ k < operators, q = .operator k
  | counter _ _, q => q = .counts
  | main, _ => False

namespace Held

variable {plan : Plan} {x y : Held} {s : State} {t : Thread}

/-- The ends of a queue are held by those who take from it or send to it, as long as they
keep their ends, and by nobody else. -/
structure Sound (x : Held) : Prop where
  receivers : ∀ q t, t ∈ (x.handles q).receivers ↔ t.takesFrom = q ∧ x.state.keeps t = true
  senders : ∀ q t, t ∈ (x.handles q).senders ↔
    t.SendsTo x.state.counters.length q ∧ x.state.keeps t = true

namespace Sound

/-- The invariant holds after all threads have been started. -/
lemma start (workers counterWorkers operators : ℕ) (tallies : List ℕ)
    (archives : List Archive.Reference) (total : Aggregate) :
    (Held.start workers counterWorkers operators tallies archives total).Sound where
  receivers q t := by
    rw [Held.start, Handles.setUp_eq, State.keeps_start]
    cases q with
    | operator k =>
        rw [Handles.mem_receivers_ofRunning_operator]
        cases t with
        | counter k' i =>
            constructor
            · rintro ⟨hk, j, hj, ⟨⟩⟩
              exact ⟨rfl, by simp [hk, hj]⟩
            · rintro ⟨⟨⟩, h⟩
              obtain ⟨hk, hi⟩ := of_decide_eq_true h
              exact ⟨hk, i, hi, rfl⟩
        | _ => simp [Thread.takesFrom]
    | _ => cases t <;> simp [Handles.ofRunning, Thread.takesFrom]
  senders q t := by
    rw [Held.start, Handles.setUp_eq, State.keeps_start]
    cases q with
    | operator k =>
        rw [Handles.mem_senders_ofRunning_operator]
        cases t <;> simp [Thread.SendsTo, State.start]
    | counts => cases t <;> simp [Handles.ofRunning, Handles.counterThreads, Thread.SendsTo]
    | _ => cases t <;> simp [Handles.ofRunning, Thread.SendsTo]

/-- The invariant holds after a thread has changed the state, if that makes no other thread
let go of its ends. -/
lemma after (h : x.Sound) (hlength : s.counters.length = x.state.counters.length)
    (hothers : ∀ u, u ≠ t → s.keeps u = x.state.keeps u)
    (hself : s.keeps t = true → x.state.keeps t = true) : (x.after t s).Sound := by
  have hmem (u : Thread) {P Q : Prop} (hP : P ↔ Q ∧ x.state.keeps u = true) :
      (if s.keeps t = true then P else P ∧ u ≠ t) ↔ Q ∧ s.keeps u = true := by
    by_cases hu : u = t
    · subst hu
      cases hkeeps : s.keeps u with
      | true => simp [hP, hself hkeeps]
      | false => simp
    · rw [hothers u hu, ← hP]
      simp [hu]
  constructor
  · intro q u
    refine Iff.trans ?_ (hmem u (h.receivers q u))
    rw [Held.after]
    split_ifs <;> simp
  · intro q u
    show u ∈ ((x.after t s).handles q).senders ↔
      u.SendsTo s.counters.length q ∧ s.keeps u = true
    rw [hlength]
    refine Iff.trans ?_ (hmem u (h.senders q u))
    rw [Held.after]
    split_ifs <;> simp

lemma turn (h : x.Sound) (hturn : x.state.turn plan t = some s) : (x.after t s).Sound :=
  have hmove := State.move_of_turn hturn
  h.after (State.length_counters_of_move hmove) (fun _ hu => hmove.keeps_of_ne hu)
    hmove.keeps_of_keeps

lemma closed_iff (h : x.Sound) (q : Queue) :
    x.handles.signals.closed q = true ↔
      ∀ t : Thread, t.SendsTo x.state.counters.length q → x.state.keeps t = false := by
  rw [Handles.signals, List.isEmpty_iff, List.eq_nil_iff_forall_not_mem]
  refine forall_congr' fun t => ?_
  rw [h.senders q t]
  cases x.state.keeps t <;> simp

lemma deserted_iff (h : x.Sound) (q : Queue) :
    x.handles.signals.deserted q = true ↔
      ∀ t : Thread, t.takesFrom = q → x.state.keeps t = false := by
  rw [Handles.signals, List.isEmpty_iff, List.eq_nil_iff_forall_not_mem]
  refine forall_congr' fun t => ?_
  rw [h.receivers q t]
  cases x.state.keeps t <;> simp

/-- The ends to send to a queue tell whether those who send to it have ended. -/
lemma closed_eq (h : x.Sound) (q : Queue) :
    x.handles.signals.closed q = x.state.signals.closed q := by
  rw [Bool.eq_iff_iff, h.closed_iff]
  cases q with
  | archives => exact iff_of_true (fun t ht => by cases t <;> simp [Thread.SendsTo] at ht) rfl
  | raw =>
      exact State.forall_keeps_eq_false_iff .extract
        (fun t => by cases t <;> simp [Thread.SendsTo]) fun _ => rfl
  | uncommented =>
      exact State.forall_keeps_eq_false_iff .comments
        (fun t => by cases t <;> simp [Thread.SendsTo]) fun _ => rfl
  | imported =>
      exact State.forall_keeps_eq_false_iff .imports
        (fun t => by cases t <;> simp [Thread.SendsTo]) fun _ => rfl
  | cleaned =>
      exact State.forall_keeps_eq_false_iff .literals
        (fun t => by cases t <;> simp [Thread.SendsTo]) fun _ => rfl
  | operator k =>
      have hsends : ∀ t : Thread, t.SendsTo x.state.counters.length (.operator k) ↔
          t = .broadcaster ∧ k < x.state.counters.length := by
        intro t
        cases t <;> simp [Thread.SendsTo]
      simp only [hsends, State.signals]
      split_ifs with hk
      · simp [hk, State.keeps]
      · simp [hk]
  | counts =>
      simp only [State.signals, State.countersEnded, List.all_eq_true]
      constructor
      · intro hends pool hpool
        obtain ⟨k, hk⟩ := List.mem_iff_getElem?.1 hpool
        rw [Pool.hasEnded_iff]
        intro i
        simpa [State.keeps, hk] using hends (.counter k i) rfl
      · intro hended t ht
        cases t with
        | counter k i =>
            rw [State.keeps]
            split
            · exact Pool.hasEnded_iff.1 (hended _ (List.mem_of_getElem? ‹_›)) i
            · rfl
        | _ => simp [Thread.SendsTo] at ht

/-- The ends to take from a queue tell whether those who take from it have ended. -/
lemma deserted_eq (h : x.Sound) (q : Queue) :
    x.handles.signals.deserted q = x.state.signals.deserted q := by
  rw [Bool.eq_iff_iff, h.deserted_iff]
  cases q with
  | archives =>
      exact State.forall_keeps_eq_false_iff .extract
        (fun t => by cases t <;> simp [Thread.takesFrom]) fun _ => rfl
  | raw =>
      exact State.forall_keeps_eq_false_iff .comments
        (fun t => by cases t <;> simp [Thread.takesFrom]) fun _ => rfl
  | uncommented =>
      exact State.forall_keeps_eq_false_iff .imports
        (fun t => by cases t <;> simp [Thread.takesFrom]) fun _ => rfl
  | imported =>
      exact State.forall_keeps_eq_false_iff .literals
        (fun t => by cases t <;> simp [Thread.takesFrom]) fun _ => rfl
  | cleaned =>
      have htakes : ∀ t : Thread, t.takesFrom = .cleaned ↔ t = .broadcaster := by
        intro t
        cases t <;> simp [Thread.takesFrom]
      simp [htakes, State.keeps, State.signals]
  | operator k =>
      have htakes : ∀ t : Thread, t.takesFrom = .operator k ↔ ∃ i, .counter k i = t := by
        intro t
        cases t <;> simp [Thread.takesFrom, eq_comm]
      simp only [State.signals]
      cases hk : x.state.counters[k]? with
      | none =>
          refine iff_of_true (fun t ht => ?_) rfl
          obtain ⟨i, rfl⟩ := (htakes t).1 ht
          simp [State.keeps, hk]
      | some pool =>
          exact State.forall_keeps_eq_false_iff (.counter k) htakes fun i => by
            simp [State.keeps, hk]
  | counts =>
      have htakes : ∀ t : Thread, t.takesFrom = .counts ↔ t = .main := by
        intro t
        cases t <;> simp [Thread.takesFrom]
      simp [htakes, State.keeps, State.signals]

/-- The holders of the ends tell what the threads tell. -/
lemma signals_eq (h : x.Sound) : x.handles.signals = x.state.signals :=
  Signals.ext (funext h.closed_eq) (funext h.deserted_eq)

/-- A pipeline that looks at the holders of the ends takes the turns that a pipeline takes
that looks at the threads. -/
lemma turn_eq (h : x.Sound) (plan : Plan) (t : Thread) :
    x.turn plan t = (x.state.turn plan t).map fun s => x.after t s := by
  rw [Held.turn, State.turn, h.signals_eq]

/-- A panic of the broadcaster keeps the invariant, because it lets go of its ends then. -/
lemma panic (h : x.Sound) (hend : x.state.broadcaster.hasEnded = false) :
    (x.after .broadcaster { x.state with
      broadcaster := .ended (.error (.panicked Broadcaster.name)) }).Sound := by
  refine h.after rfl ?_ ?_
  · intro u hu
    cases u with
    | broadcaster => exact absurd rfl hu
    | _ => rfl
  · intro _
    simp [State.keeps, hend]

end Sound

end Held

/-! ### Executions -/

/-- One step of a pipeline whose stages may do anything, and whose threads are told what the
holders of the ends of the queues tell, with the failure that happens in it. -/
inductive HeldStep (capacity operators : ℕ) (x : Held) : Option (Failure Cause) → Held → Prop
  | turn (plan : Plan) (hplan : plan.Fits capacity operators) (thread : Thread) {y : Held}
      (h : x.turn plan thread = some y) :
      HeldStep capacity operators x (x.state.failing? plan thread) y
  | panic (h : x.state.broadcaster.hasEnded = false) :
      HeldStep capacity operators x (some (.panicked Broadcaster.name))
        (x.after .broadcaster { x.state with
          broadcaster := .ended (.error (.panicked Broadcaster.name)) })

section Executions

variable {capacity operators workers counterWorkers : ℕ} {tallies : List ℕ}
  {archives : List Archive.Reference} {total : Aggregate} {x y : Held} {s : State}
  {f : Option (Failure Cause)} {happened : List (Failure Cause)}

lemma HeldStep.measure_lt (h : HeldStep capacity operators x f y) :
    State.Lower.rel y.state.measure x.state.measure := by
  cases h with
  | turn plan hplan thread h =>
      obtain ⟨s, hs, rfl⟩ := Option.map_eq_some_iff.1 h
      exact State.turnWith_decreases hs
  | panic h => exact State.measure_panic_lt h

/-- Every step keeps the invariant, and is a step of the pipeline without ends. -/
lemma Held.Sound.step (hx : x.Sound) (h : HeldStep capacity operators x f y) :
    y.Sound ∧ FreeStep capacity operators x.state f y.state := by
  cases h with
  | turn plan hplan thread h =>
      rw [hx.turn_eq] at h
      obtain ⟨s, hs, rfl⟩ := Option.map_eq_some_iff.1 h
      exact ⟨hx.turn hs, .turn plan hplan thread hs⟩
  | panic h => exact ⟨hx.panic h, .panic h⟩

/-- Every step of the pipeline without ends is one of the pipeline with ends. -/
lemma Held.Sound.exists_step (hx : x.Sound) (h : FreeStep capacity operators x.state f s) :
    ∃ y, y.state = s ∧ HeldStep capacity operators x f y := by
  cases h with
  | turn plan hplan thread h =>
      refine ⟨x.after thread s, rfl, .turn plan hplan thread ?_⟩
      rw [hx.turn_eq, h, Option.map_some]
  | panic h => exact ⟨_, rfl, .panic h⟩

lemma Execution.turn {start : Held} (h : Execution (HeldStep capacity operators) start happened x)
    (plan : Plan) (hplan : plan.Fits capacity operators) (thread : Thread)
    (hturn : x.turn plan thread = some y) :
    Execution (HeldStep capacity operators) start
      (happened ++ (x.state.failing? plan thread).toList) y :=
  h.step (.turn plan hplan thread hturn)

/-- The invariant holds in every execution, which is one of the pipeline without ends. -/
lemma Execution.of_held
    (h : Execution (HeldStep capacity operators)
      (.start workers counterWorkers operators tallies archives total) happened x) :
    x.Sound ∧ Execution (FreeStep capacity operators)
      (.start workers counterWorkers operators tallies archives total) happened x.state := by
  induction h with
  | start => exact ⟨.start _ _ _ _ _ _, .start⟩
  | step _ hstep ih =>
      obtain ⟨hsound, hexec⟩ := ih
      obtain ⟨hsound', hfree⟩ := hsound.step hstep
      exact ⟨hsound', hexec.step hfree⟩

/-- **The ends change nothing.** A pipeline whose threads look at the holders of the ends of
the queues has the same executions as one whose threads look at each other. -/
theorem exists_held_iff :
    (∃ x : Held, x.state = s ∧ Execution (HeldStep capacity operators)
      (.start workers counterWorkers operators tallies archives total) happened x) ↔
    Execution (FreeStep capacity operators)
      (.start workers counterWorkers operators tallies archives total) happened s := by
  constructor
  · rintro ⟨x, rfl, hexec⟩
    exact hexec.of_held.2
  · intro hexec
    induction hexec with
    | start => exact ⟨_, rfl, .start⟩
    | step _ hstep ih =>
        obtain ⟨x, rfl, hheld⟩ := ih
        obtain ⟨y, rfl, hstep'⟩ := hheld.of_held.1.exists_step hstep
        exact ⟨y, rfl, hheld.step hstep'⟩

end Executions

end CallCensus.Pipeline
