import CallCensus.Proofs.Pipeline.Order

/-!
What a pipeline may lose.

A worker that fails, or that nobody takes from any more, ends with items in its hands, and the items
in its queue may never be taken. So counts can be lost, but no turn makes any: what was still to
come before a turn is what is still to come after it, and what was lost in between.

* `Stage.Sends`, `Plan.Sends`: stages that send the same for an item in every state, also when they
  fail at it;
* `State.due_move_le`: no turn makes a count that was not to come.
-/

namespace CallCensus.Pipeline

variable {σ α β ε : Type}

/-- A stage that sends the items `f a` for every item `a`, in every state. -/
def Stage.Sends (stage : Stage σ α β ε) (f : α → List β) : Prop :=
  ∀ state a, (stage.process state a).1 = f a

/-- A plan whose stages send what the functions of a meaning give. -/
structure Plan.Sends (plan : Plan) (m : Meaning) : Prop where
  extract : plan.extract.Sends m.extract
  comments : plan.comments.Sends m.comments
  imports : plan.imports.Sends m.imports
  literals : plan.literals.Sends m.literals
  counters : List.Forall₂ Stage.Sends plan.counters m.counters

lemma Plan.Sends.exists_counter {plan : Plan} {m : Meaning} (h : plan.Sends m) {k : ℕ}
    {stage : Stage Unit SourceFile CallCount Cause} (hstage : plan.counters[k]? = some stage) :
    ∃ f, m.counters[k]? = some f ∧ stage.Sends f := by
  obtain ⟨hlt, rfl⟩ := List.getElem?_eq_some_iff.1 hstage
  have hlt' : k < m.counters.length := h.counters.length_eq ▸ hlt
  exact ⟨m.counters[k], List.getElem?_eq_getElem hlt', List.Forall₂.get h.counters hlt hlt'⟩

namespace State

variable {plan : Plan} {m : Meaning} {s t : State} {thread : Thread}

/-- **No turn makes a count that was not to come**, unless it is one of the main thread, which takes
counts away. -/
lemma due_move_le (hsends : plan.Sends m) (hwidth : s.counters.length = m.counters.length)
    (hmove : Move plan s thread t) (hthread : thread ≠ .main) : t.due m ≤ s.due m := by
  rw [Multiset.le_iff_exists_add]
  cases hmove with
  | @extract i pool sent ht =>
      obtain ⟨lost, -, hlost⟩ := Pool.exists_lost (f := m.ofArchive) (g := m.ofRaw) ht
        (fun state a _ => hsends.extract state a) fun _ => rfl
      refine ⟨lost, ?_⟩
      simp only [due, Pool.due_receive, hlost]
      abel
  | @comments i pool sent ht =>
      obtain ⟨lost, -, hlost⟩ := Pool.exists_lost (f := m.ofRaw) (g := m.ofUncommented) ht
        (fun state a _ => hsends.comments state a) fun _ => rfl
      refine ⟨lost, ?_⟩
      simp only [due, Pool.due_receive, hlost]
      abel
  | @imports i pool sent ht =>
      obtain ⟨lost, -, hlost⟩ := Pool.exists_lost (f := m.ofUncommented) (g := m.ofImported) ht
        (fun state a _ => hsends.imports state a) fun _ => rfl
      refine ⟨lost, ?_⟩
      simp only [due, Pool.due_receive, hlost]
      abel
  | @literals i pool sent ht =>
      obtain ⟨lost, -, hlost⟩ := Pool.exists_lost (f := m.ofImported) (g := m.ofCleaned) ht
        (fun state a _ => hsends.literals state a) fun _ => rfl
      refine ⟨lost, ?_⟩
      simp only [due, hlost, List.flatMap_append, ← Multiset.coe_add]
      abel
  | broadcaster ht =>
      obtain ⟨lost, -, hlost⟩ := exists_lost_broadcaster hwidth ht
      refine ⟨lost, ?_⟩
      simp only [due]
      calc _ = (s.extract.due m.ofArchive m.ofRaw + s.comments.due m.ofRaw m.ofUncommented +
              s.imports.due m.ofUncommented m.ofImported + s.literals.due m.ofImported m.ofCleaned +
              ↑s.counts) + (↑(s.cleaned.flatMap m.ofCleaned) + s.broadcaster.due m.counters +
                countersDue m.counters s.counters) := by abel
        _ = _ := by rw [hlost]; abel
  | @counter k i stage pool pool' sent hstage hpool ht =>
      obtain ⟨f, hf, hcounter⟩ := hsends.exists_counter hstage
      obtain ⟨lost, -, hlost⟩ := Pool.exists_lost (f := f) (g := fun c => [c]) ht
        (fun state a _ => hcounter state a) fun a => by simp
      have hset : countersDue m.counters s.counters =
          countersDue m.counters (s.counters.set k pool') + ↑sent.toList + lost := by
        refine add_right_cancel (b := pool'.due f fun c => [c]) ?_
        rw [← countersDue_set pool' hf hpool, hlost, List.flatMap_singleton']
        abel
      refine ⟨lost, ?_⟩
      simp only [due, hset, ← Multiset.coe_add]
      abel
  | _ => exact absurd rfl hthread

end State

end CallCensus.Pipeline
