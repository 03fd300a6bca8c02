import CallCensus.Proofs.Pipeline.Turns

/-!
What a worker makes of the items it takes.

A worker processes the items it takes one after the other, each in the state that the one
before has left, and sends what the calls emit. A call that fails is its last. So where a
worker is at some point, and what it has sent by then, is a matter of the items it has taken,
and of how far it has come with sending.

* `Stage.calls`: the calls for a list of items, `Stage.emitted` and `Verdict.result` what is sent
  and what the worker comes to;
* `Stage.calls_concat`: one item more, `Stage.exists_done_of_length_calls`: nothing after a call
  that fails;
* `Worker.Worked`: where a worker is that has taken and sent given items;
* `Worker.Worked.move`: every move keeps to that.
-/

namespace CallCensus.Pipeline

variable {σ α β ε : Type}

/-! ### Calls -/

/-- What a worker comes to whose last call has ended so. -/
def Verdict.result (name : String) : Verdict σ ε → Except (Failure ε) σ
  | .done state => .ok state
  | .failed e => .error (.cause e)
  | .panicked => .error (.panicked name)

namespace Stage

/-- The calls for a list of items, one after the other from a state on: what each of them emits,
and how the last ends. After a call that fails there is no other. -/
def calls (stage : Stage σ α β ε) : σ → List α → List (List β) × Verdict σ ε
  | state, [] => ([], .done state)
  | state, item :: items =>
    match stage.process state item with
    | (out, .done next) => (out :: (stage.calls next items).1, (stage.calls next items).2)
    | (out, verdict) => ([out], verdict)

/-- All that the calls for a list of items emit, in order. -/
def emitted (stage : Stage σ α β ε) (state : σ) (items : List α) : List β :=
  (stage.calls state items).1.flatten

/-- What a worker comes to after the calls for a list of items. -/
def result (stage : Stage σ α β ε) (state : σ) (items : List α) : Except (Failure ε) σ :=
  (stage.calls state items).2.result stage.name

variable {stage : Stage σ α β ε} {state next : σ} {items : List α}

/-- As long as no call has failed, one item more is one call more, in the state that the calls
before have left. -/
lemma calls_concat (h : (stage.calls state items).2 = .done next) (item : α) :
    stage.calls state (items ++ [item]) =
      ((stage.calls state items).1 ++ [(stage.process next item).1],
        (stage.process next item).2) := by
  induction items generalizing state with
  | nil =>
      obtain rfl : state = next := by simpa [calls] using h
      rcases hcall : stage.process state item with ⟨out, verdict⟩
      cases verdict <;> simp [calls, hcall]
  | cons first items ih =>
      rw [calls] at h
      rw [List.cons_append, calls, calls]
      rcases hfirst : stage.process state first with ⟨out, verdict⟩
      rw [hfirst] at h
      cases verdict with
      | done after => simp only [ih h, List.cons_append]
      | failed e => cases h
      | panicked => cases h

/-- If there is a call for every item, all calls but the last have ended well. -/
lemma exists_done_of_length_calls {before rest : List α} {item : α}
    (h : (stage.calls state (before ++ item :: rest)).1.length = (before ++ item :: rest).length) :
    ∃ next, (stage.calls state before).2 = .done next := by
  induction before generalizing state with
  | nil => exact ⟨state, rfl⟩
  | cons first before ih =>
      rw [List.cons_append, calls] at h
      rw [calls]
      rcases hfirst : stage.process state first with ⟨out, verdict⟩
      rw [hfirst] at h
      cases verdict with
      | done after => exact ih (by simpa using h)
      | failed e => simp at h
      | panicked => simp at h

lemma emitted_concat (h : (stage.calls state items).2 = .done next) (item : α) :
    stage.emitted state (items ++ [item]) =
      stage.emitted state items ++ (stage.process next item).1 := by
  rw [emitted, calls_concat h, List.flatten_concat, emitted]

end Stage

/-! ### Workers -/

namespace Worker

/-- The items that are taken from a queue of which `rest` is left. -/
def takenFrom (inbox rest : List α) : List α :=
  inbox.take (inbox.length - rest.length)

@[simp] lemma takenFrom_self (inbox : List α) : takenFrom inbox inbox = [] := by
  simp [takenFrom]

@[simp] lemma takenFrom_cons (item : α) (rest : List α) :
    takenFrom (item :: rest) rest = [item] := by
  simp [takenFrom]

/-- Where a worker is that has started in the state `start`, has taken the items `took` and has
sent the items `gave`. `deserted` says that nobody may be left to send to. -/
inductive Worked (stage : Stage σ α β ε) (deserted : Bool) (start : σ) (took : List α)
    (gave : List β) : Worker σ β ε → Prop
  /-- All calls have ended well, and all that they emitted is sent. -/
  | waiting (state : σ) (hverdict : (stage.calls start took).2 = .done state)
      (hgave : gave = stage.emitted start took) :
      Worked stage deserted start took gave (waiting state)
  /-- Some of what the calls emitted is still to be sent. -/
  | sending (pending : List β) (verdict : Verdict σ ε)
      (hverdict : (stage.calls start took).2 = verdict)
      (hgave : gave ++ pending = stage.emitted start took) :
      Worked stage deserted start took gave (sending pending verdict)
  /-- All that the calls emitted is sent, and the worker has come to what they come to. -/
  | ended (hgave : gave = stage.emitted start took) :
      Worked stage deserted start took gave (ended (stage.result start took))
  /-- Nobody was there to send to. -/
  | lost (hdeserted : deserted = true) (hgave : gave <+: stage.emitted start took) :
      Worked stage deserted start took gave (ended (.error (.disconnected stage.name)))

variable {stage : Stage σ α β ε} {deserted closed : Bool} {room : Room} {start : σ}
  {took : List α} {gave : List β} {w w' : Worker σ β ε} {inbox inbox' : List α}
  {sent : Option β}

lemma Move.takenFrom_append (h : Move stage closed room w inbox w' inbox' sent) :
    takenFrom inbox inbox' ++ inbox' = inbox := by
  cases h <;> simp

/-- Every item that a worker takes is one call more. -/
lemma Worked.length_calls (h : Worked stage deserted start took gave w)
    (hprocessed : (stage.calls start took).1.length = took.length)
    (hmove : Move stage closed room w inbox w' inbox' sent) :
    (stage.calls start (took ++ takenFrom inbox inbox')).1.length =
      (took ++ takenFrom inbox inbox').length := by
  cases hmove with
  | take state item rest =>
      cases h with
      | waiting _ hverdict hgave =>
          rw [takenFrom_cons, Stage.calls_concat hverdict, List.length_append, List.length_append,
            hprocessed]
          rfl
  | _ => rwa [takenFrom_self, List.append_nil]

/-- A worker that has sent everything is where its calls have left it. -/
lemma Worked.conclude {verdict : Verdict σ ε}
    (hverdict : (stage.calls start took).2 = verdict) (hgave : gave = stage.emitted start took) :
    Worked stage deserted start took gave (conclude stage.name verdict) := by
  have hended : Worked stage deserted start took gave (.ended (stage.result start took)) :=
    .ended hgave
  rw [Stage.result, hverdict] at hended
  cases verdict with
  | done state => exact .waiting state hverdict hgave
  | failed e => exact hended
  | panicked => exact hended

/-- A move of a worker brings it to where the items put it that it has taken and sent by then. -/
lemma Worked.move (h : Worked stage deserted start took gave w)
    (hmove : Move stage closed room w inbox w' inbox' sent)
    (hroom : room = .gone → deserted = true) :
    Worked stage deserted start (took ++ takenFrom inbox inbox') (gave ++ sent.toList) w' := by
  cases hmove with
  | take state item rest =>
      cases h with
      | waiting _ hverdict hgave =>
          rw [takenFrom_cons, Option.toList_none, List.append_nil]
          refine .sending _ _ (by rw [Stage.calls_concat hverdict]) ?_
          rw [Stage.emitted_concat hverdict, hgave]
  | finish state hclosed =>
      cases h with
      | waiting _ hverdict hgave =>
          have hended : Worked stage deserted start took gave
              (.ended (stage.result start took)) := .ended hgave
          rw [Stage.result, hverdict] at hended
          simpa [Verdict.result] using hended
  | send item pending verdict =>
      cases h with
      | sending _ _ hverdict hgave =>
          rw [takenFrom_self, List.append_nil, Option.toList_some]
          exact .sending _ _ hverdict (by rw [List.append_assoc, List.singleton_append, hgave])
  | lose item pending verdict inbox hgone =>
      cases h with
      | sending _ _ hverdict hgave => simpa using Worked.lost (hroom hgone) ⟨_, hgave⟩
  | goOn | fail | panic =>
      cases h with
      | sending _ _ hverdict hgave =>
          simpa [Worker.conclude] using Worked.conclude hverdict (by simpa using hgave)

end Worker

end CallCensus.Pipeline
