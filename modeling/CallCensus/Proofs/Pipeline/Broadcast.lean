import CallCensus.Proofs.Pipeline.Progress

/-!
What a broadcaster delivers.

A broadcaster sends every item to all of its receivers, in their order, before it takes the next.
So at every time the receivers before some number have accepted one item more than all others, and
otherwise everybody has accepted the same items. A receiver may take items or be gone at any time;
only a send to a receiver that is gone ends the broadcaster early, and by then everybody has
accepted what was sent before.

* `Receiver`, `Broadcast`, `Broadcast.Step`: a broadcaster with its receivers, and how they go on;
* `Broadcast.Split`, `Broadcast.Stands`: the invariant, kept by every step (`Stands.step`);
* `Broadcast.getElem?_of_reachable`: a receiver that is gone stays as it is;
* `Broadcast.exists_step`, `Broadcast.Step.decreases`: a broadcast goes on to its end;
* `Broadcast.delivers_alike`: all executions.
-/

namespace CallCensus.Pipeline

variable {α ε : Type}

/-- A receiver of a broadcast: the items it has taken, those queued for it, and whether nobody is
left of it to take any. -/
structure Receiver (α : Type) where
  taken : List α
  queue : List α
  gone : Bool

/-- The items that were sent to a receiver, in order. -/
def Receiver.accepted (r : Receiver α) : List α :=
  r.taken ++ r.queue

/-- A broadcaster with its receivers: the items still to come, those queued for the broadcaster,
the broadcaster and the receivers. -/
structure Broadcast (α ε : Type) where
  coming : List α
  inbox : List α
  thread : Broadcaster α ε
  receivers : List (Receiver α)

namespace Broadcast

/-- The start, with `n` receivers. -/
def start (items : List α) (n : ℕ) : Broadcast α ε :=
  ⟨items, [], .waiting 0, List.replicate n ⟨[], [], false⟩⟩

/-- The room at the receivers, of whom some may wait for an item. -/
def rooms (capacity : ℕ) (waiting : ℕ → ℕ) (b : Broadcast α ε) : List Room :=
  b.receivers.mapIdx fun k r => .inQueue r.gone capacity r.queue.length (waiting k)

/-- The receivers after an item was sent to one of them. -/
def deliver (receivers : List (Receiver α)) : Option (ℕ × α) → List (Receiver α)
  | none => receivers
  | some (k, item) => receivers.modify k fun r => { r with queue := r.queue ++ [item] }

/-- How a broadcast can go on. Every queue keeps as many items as its `capacity`, and the
broadcaster's may be closed once nothing is to come. -/
inductive Step (capacity : ℕ) (b : Broadcast α ε) : Broadcast α ε → Prop
  /-- An item comes into the queue of the broadcaster. -/
  | queue (item : α) (coming : List α) (hcoming : b.coming = item :: coming)
      (hroom : b.thread.room capacity b.inbox.length = .free) :
      Step capacity b { b with coming := coming, inbox := b.inbox ++ [item] }
  /-- A receiver takes an item. -/
  | take (k : ℕ) (r : Receiver α) (item : α) (rest : List α) (hr : b.receivers[k]? = some r)
      (hstays : r.gone = false) (hqueue : r.queue = item :: rest) :
      Step capacity b
        { b with receivers := b.receivers.set k ⟨r.taken ++ [item], rest, false⟩ }
  /-- A receiver is gone from now on. -/
  | leave (k : ℕ) (r : Receiver α) (hr : b.receivers[k]? = some r) (hstays : r.gone = false) :
      Step capacity b { b with receivers := b.receivers.set k { r with gone := true } }
  /-- The broadcaster has a turn. -/
  | turn (closed : Bool) (waiting : ℕ → ℕ) (thread : Broadcaster α ε) (inbox : List α)
      (sent : Option (ℕ × α)) (hclosed : closed = true → b.coming = [])
      (hturn : b.thread.turn closed (b.rooms capacity waiting) b.inbox
        = some (thread, inbox, sent)) :
      Step capacity b
        { b with thread := thread, inbox := inbox, receivers := deliver b.receivers sent }

variable {capacity : ℕ} {b b' : Broadcast α ε} {items before left : List α} {item : α} {k : ℕ}
  {receivers receivers' : List (Receiver α)} {r r' : Receiver α}

lemma getElem?_rooms (capacity : ℕ) (waiting : ℕ → ℕ) (b : Broadcast α ε) (k : ℕ) :
    (b.rooms capacity waiting)[k]? =
      b.receivers[k]?.map fun r => .inQueue r.gone capacity r.queue.length (waiting k) :=
  List.getElem?_mapIdx

lemma getElem?_deliver (receivers : List (Receiver α)) (k : ℕ) (item : α) (j : ℕ) :
    (deliver receivers (some (k, item)))[j]? = receivers[j]?.map fun r =>
      if k = j then { r with queue := r.queue ++ [item] } else r := by
  rw [deliver, List.getElem?_modify]
  rfl

@[simp] lemma length_deliver (receivers : List (Receiver α)) (sent : Option (ℕ × α)) :
    (deliver receivers sent).length = receivers.length := by
  cases sent with
  | none => rfl
  | some sent => exact List.length_modify ..

/-! ### The invariant -/

/-- The receivers before the one numbered `k` have accepted an item that comes after some others,
and all receivers have accepted those others. -/
def Split (before : List α) (item : α) (k : ℕ) (receivers : List (Receiver α)) : Prop :=
  ∀ j r, receivers[j]? = some r → r.accepted = if j < k then before ++ [item] else before

/-- Where the broadcaster stands when `left` is left of the items, and what its receivers have
accepted by then. -/
inductive Stands (items : List α) (receivers : List (Receiver α)) (left : List α) :
    Broadcaster α ε → Prop
  /-- Everybody has accepted the same items. -/
  | waiting (before : List α) (sent : ℕ) (hsent : sent = before.length)
      (hitems : items = before ++ left) (hall : ∀ r ∈ receivers, r.accepted = before) :
      Stands items receivers left (.waiting sent)
  /-- Some have accepted an item that the others have not. -/
  | delivering (before : List α) (item : α) (next sent : ℕ) (hsent : sent = before.length)
      (hitems : items = before ++ item :: left) (hsplit : Split before item next receivers) :
      Stands items receivers left (.delivering item next sent)
  /-- Everybody has accepted all items. -/
  | finished (hall : ∀ r ∈ receivers, r.accepted = items) :
      Stands items receivers left (.ended (.ok items.length))
  /-- A receiver was gone to which an item was sent. -/
  | lost (before : List α) (item : α) (k : ℕ) (r : Receiver α)
      (hitems : items = before ++ item :: left) (hk : receivers[k]? = some r)
      (hgone : r.gone = true) (hsplit : Split before item k receivers) :
      Stands items receivers left (.ended (.error (.disconnected Broadcaster.name)))

lemma split_zero (hall : ∀ r ∈ receivers, r.accepted = before) (item : α) :
    Split before item 0 receivers := by
  intro j r hj
  rw [if_neg (Nat.not_lt_zero j)]
  exact hall r (List.mem_of_getElem? hj)

lemma Split.accepted_eq (h : Split before item k receivers) (hk : receivers.length ≤ k)
    (hr : r ∈ receivers) : r.accepted = before ++ [item] := by
  obtain ⟨j, hj⟩ := List.mem_iff_getElem?.1 hr
  rw [h j r hj, if_pos ((List.getElem?_eq_some_iff.1 hj).1.trans_le hk)]

/-- Sending the item to the next receiver. -/
lemma Split.deliver (h : Split before item k receivers) :
    Split before item (k + 1) (deliver receivers (some (k, item))) := by
  intro j r hj
  rw [getElem?_deliver, Option.map_eq_some_iff] at hj
  obtain ⟨old, hold, hnew⟩ := hj
  have hacc := h j old hold
  by_cases hkj : k = j
  · subst hkj
    rw [if_neg (Nat.lt_irrefl k)] at hacc
    rw [if_pos rfl] at hnew
    rw [if_pos (Nat.lt_succ_self k), ← hnew, ← hacc, Receiver.accepted, Receiver.accepted,
      List.append_assoc]
  · rw [if_neg hkj] at hnew
    rw [← hnew, hacc]
    exact if_congr (by omega) rfl rfl

/-- Where one receiver was replaced that has accepted the same, everybody has accepted the same. -/
lemma exists_of_set (hr : receivers[k]? = some r) (hsame : r'.accepted = r.accepted) {j : ℕ}
    {s' : Receiver α} (hj : (receivers.set k r')[j]? = some s') :
    ∃ s, receivers[j]? = some s ∧ s'.accepted = s.accepted := by
  by_cases hkj : k = j
  · subst hkj
    rw [List.getElem?_set_self (List.getElem?_eq_some_iff.1 hr).1, Option.some_inj] at hj
    exact ⟨r, hr, by rw [← hj, hsame]⟩
  · rw [List.getElem?_set_ne hkj] at hj
    exact ⟨s', hj, rfl⟩

namespace Stands

variable {thread : Broadcaster α ε}

/-- A receiver that is not gone may change, as long as it keeps what it has accepted. -/
lemma set (h : Stands items receivers left thread) (hr : receivers[k]? = some r)
    (hstays : r.gone = false) (hsame : r'.accepted = r.accepted) :
    Stands items (receivers.set k r') left thread := by
  have hall : ∀ {l : List α}, (∀ s ∈ receivers, s.accepted = l) →
      ∀ s ∈ receivers.set k r', s.accepted = l := by
    intro l hl s hs
    obtain ⟨j, hj⟩ := List.mem_iff_getElem?.1 hs
    obtain ⟨old, hold, heq⟩ := exists_of_set hr hsame hj
    rw [heq, hl old (List.mem_of_getElem? hold)]
  have hsplit : ∀ {before item next}, Split before item next receivers →
      Split before item next (receivers.set k r') := by
    intro before item next hs j s hj
    obtain ⟨old, hold, heq⟩ := exists_of_set hr hsame hj
    rw [heq, hs j old hold]
  cases h with
  | waiting before sent hsent hitems h => exact .waiting before sent hsent hitems (hall h)
  | delivering before item next sent hsent hitems h =>
      exact .delivering before item next sent hsent hitems (hsplit h)
  | finished h => exact .finished (hall h)
  | lost before item j s hitems hj hgone h =>
      have hkj : k ≠ j := by
        rintro rfl
        rw [Option.some.inj (hr.symm.trans hj), hgone] at hstays
        cases hstays
      exact .lost before item j s hitems (by rw [List.getElem?_set_ne hkj, hj]) hgone (hsplit h)

end Stands

/-- A turn of the broadcaster brings it to where its items and receivers put it. -/
lemma stands_of_turn {closed : Bool} {waiting : ℕ → ℕ} {thread : Broadcaster α ε}
    {inbox : List α} {sent : Option (ℕ × α)}
    (h : Stands items b.receivers (b.inbox ++ b.coming) b.thread)
    (hclosed : closed = true → b.coming = [])
    (hturn : b.thread.turn closed (b.rooms capacity waiting) b.inbox
      = some (thread, inbox, sent)) :
    Stands items (deliver b.receivers sent) (inbox ++ b.coming) thread := by
  have hmove := Broadcaster.move_of_turn hturn
  generalize hthread : b.thread = old at h hmove
  generalize hinbox : b.inbox = queued at h hmove
  cases hmove with
  | take n item rest =>
      cases h with
      | waiting before _ hsent hitems hall =>
          exact .delivering before item 0 n hsent hitems (split_zero hall item)
  | finish n hup =>
      cases h with
      | waiting before _ hsent hitems hall =>
          obtain rfl : items = before := by simpa [hclosed hup] using hitems
          rw [hsent]
          exact .finished hall
  | goOn item next n _ hroom =>
      cases h with
      | delivering before _ _ _ hsent hitems hsplit =>
          have hle : b.receivers.length ≤ next := by
            simpa [rooms] using hroom
          exact .waiting (before ++ [item]) (n + 1) (by simp [hsent]) (by simp [hitems])
            fun r hr => hsplit.accepted_eq hle hr
  | send item next n _ hroom =>
      cases h with
      | delivering before _ _ _ hsent hitems hsplit =>
          exact .delivering before item (next + 1) n hsent hitems hsplit.deliver
  | lose item next n _ hroom =>
      cases h with
      | delivering before _ _ _ hsent hitems hsplit =>
          rw [getElem?_rooms, Option.map_eq_some_iff] at hroom
          obtain ⟨r, hr, hgone⟩ := hroom
          exact .lost before item next r hitems hr (Room.inQueue_eq_gone.1 hgone) hsplit

/-- Every step keeps to the invariant. -/
lemma Stands.step (h : Stands items b.receivers (b.inbox ++ b.coming) b.thread)
    (hstep : Step capacity b b') :
    Stands items b'.receivers (b'.inbox ++ b'.coming) b'.thread := by
  cases hstep with
  | queue item coming hcoming hroom =>
      rw [hcoming] at h
      simpa using h
  | take k r item rest hr hstays hqueue =>
      exact h.set hr hstays (by simp [Receiver.accepted, hqueue])
  | leave k r hr hstays => exact h.set hr hstays rfl
  | turn closed waiting thread inbox sent hclosed hturn => exact stands_of_turn h hclosed hturn

/-- The invariant holds of every broadcast that is reached. -/
lemma stands_of_reachable {n : ℕ}
    (h : Relation.ReflTransGen (Step capacity) (start items n) b) :
    Stands items b.receivers (b.inbox ++ b.coming) b.thread := by
  induction h with
  | refl =>
      refine .waiting [] 0 rfl rfl fun r hr => ?_
      rw [List.eq_of_mem_replicate hr]
      rfl
  | tail _ hstep ih => exact ih.step hstep

lemma length_receivers {n : ℕ} (h : Relation.ReflTransGen (Step capacity) (start items n) b) :
    b.receivers.length = n := by
  induction h with
  | refl => exact List.length_replicate
  | tail _ hstep ih => cases hstep <;> simpa using ih

/-! ### Receivers that are gone -/

/-- The broadcaster only sends to receivers that are not gone. -/
lemma exists_stays_of_sent {closed : Bool} {waiting : ℕ → ℕ} {thread : Broadcaster α ε}
    {inbox : List α} {sent : ℕ × α}
    (hturn : b.thread.turn closed (b.rooms capacity waiting) b.inbox
      = some (thread, inbox, some sent)) :
    ∃ s, b.receivers[sent.1]? = some s ∧ s.gone = false := by
  have hmove := Broadcaster.move_of_turn hturn
  generalize b.thread = old at hmove
  generalize b.inbox = queued at hmove
  cases hmove with
  | send item next n _ hroom =>
      rw [getElem?_rooms, Option.map_eq_some_iff] at hroom
      obtain ⟨s, hs, hfree⟩ := hroom
      refine ⟨s, hs, Bool.eq_false_iff.2 fun hgone => ?_⟩
      rw [Room.inQueue_eq_gone.2 hgone] at hfree
      cases hfree

/-- A receiver that is gone stays as it is. -/
lemma getElem?_of_step (hr : b.receivers[k]? = some r) (hgone : r.gone = true)
    (hstep : Step capacity b b') : b'.receivers[k]? = some r := by
  have hne : ∀ {j : ℕ} {s : Receiver α}, b.receivers[j]? = some s → s.gone = false → j ≠ k := by
    rintro j s hj hstays rfl
    rw [Option.some.inj (hj.symm.trans hr), hgone] at hstays
    cases hstays
  cases hstep with
  | queue item coming hcoming hroom => exact hr
  | take j s item rest hj hstays hqueue => rw [List.getElem?_set_ne (hne hj hstays), hr]
  | leave j s hj hstays => rw [List.getElem?_set_ne (hne hj hstays), hr]
  | turn closed waiting thread inbox sent hclosed hturn =>
      cases sent with
      | none => exact hr
      | some sent =>
          obtain ⟨s, hs, hstays⟩ := exists_stays_of_sent hturn
          rw [getElem?_deliver, hr, Option.map_some, if_neg (hne hs hstays)]

lemma getElem?_of_reachable (hr : b.receivers[k]? = some r) (hgone : r.gone = true)
    (h : Relation.ReflTransGen (Step capacity) b b') : b'.receivers[k]? = some r := by
  induction h with
  | refl => exact hr
  | tail _ hstep ih => exact getElem?_of_step ih hgone hstep

/-! ### Progress and termination -/

/-- As long as the broadcaster has not ended the broadcast can go on. -/
lemma exists_step (h : b.thread.hasEnded = false) : ∃ b', Step capacity b b' := by
  cases hthread : b.thread with
  | waiting n =>
      cases hinbox : b.inbox with
      | cons item rest =>
          exact ⟨_, .turn false (fun _ => 0) (.delivering item 0 n) rest none (by simp)
            (by rw [hthread, hinbox]; rfl)⟩
      | nil =>
          cases hcoming : b.coming with
          | nil =>
              exact ⟨_, .turn true (fun _ => 0) (.ended (.ok n)) [] none (fun _ => hcoming)
                (by rw [hthread, hinbox]; rfl)⟩
          | cons item coming =>
              refine ⟨_, .queue item coming hcoming ?_⟩
              rw [hthread, hinbox]
              cases capacity <;> rfl
  | delivering item next n =>
      cases hnext : b.receivers[next]? with
      | none =>
          have hroom : (b.rooms capacity fun _ => 0)[next]? = none := by
            rw [getElem?_rooms, hnext, Option.map_none]
          exact ⟨_, .turn false (fun _ => 0) (.waiting (n + 1)) b.inbox none (by simp)
            (by simp only [hthread, Broadcaster.turn, hroom])⟩
      | some r =>
          cases hgone : r.gone with
          | true =>
              have hroom : (b.rooms capacity fun _ => 0)[next]? = some .gone := by
                rw [getElem?_rooms, hnext, Option.map_some, Room.inQueue_eq_gone.2 hgone]
              exact ⟨_, .turn false (fun _ => 0) (.ended (.error (.disconnected Broadcaster.name)))
                b.inbox none (by simp) (by simp only [hthread, Broadcaster.turn, hroom])⟩
          | false =>
              cases hqueue : r.queue with
              | cons old rest => exact ⟨_, .take next r old rest hnext hgone hqueue⟩
              | nil =>
                  have hroom : (b.rooms capacity fun _ => 1)[next]? = some .free := by
                    rw [getElem?_rooms, hnext, Option.map_some, hgone, hqueue]
                    cases capacity <;> rfl
                  exact ⟨_, .turn false (fun _ => 1) (.delivering item (next + 1) n) b.inbox
                    (some (next, item)) (by simp) (by simp only [hthread, Broadcaster.turn, hroom])⟩
  | ended result => rw [hthread] at h; cases h

/-- The well-founded relation that every step goes down. -/
abbrev Lower : WellFoundedRelation (ℕ × (ℕ × ℕ) × ℕ × ℕ) :=
  inferInstance

/-- The number of items still to come, what is left to do for the broadcaster, the number of items
queued for the receivers, and the number of receivers that are not gone. -/
def measure (b : Broadcast α ε) : ℕ × (ℕ × ℕ) × ℕ × ℕ :=
  (b.coming.length, (b.inbox.length, b.thread.rank b.receivers.length),
    Pool.sumBy (fun r => r.queue.length) b.receivers,
    Pool.sumBy (fun r => if r.gone then 0 else 1) b.receivers)

/-- Every step brings an item into the queue, is a turn of the broadcaster, takes an item from a
receiver's queue, or takes a receiver away. -/
lemma Step.decreases (h : Step capacity b b') : Lower.rel b'.measure b.measure := by
  cases h with
  | queue item coming hcoming hroom =>
      have hlt : coming.length < b.coming.length := by simp [hcoming]
      exact .left _ _ hlt
  | take k r item rest hr hstays hqueue =>
      have hlt := Pool.sumBy_set_lt (fun r : Receiver α => r.queue.length) hr
        (b := ⟨r.taken ++ [item], rest, false⟩) (by simp [hqueue])
      simp only [measure, List.length_set]
      exact .right _ (.right _ (.left _ _ hlt))
  | leave k r hr hstays =>
      have hqueues := State.sumBy_set_eq (fun r : Receiver α => r.queue.length) hr
        (b := { r with gone := true }) rfl
      have hlt := Pool.sumBy_set_lt (fun r : Receiver α => if r.gone then 0 else 1) hr
        (b := { r with gone := true }) (by simp [hstays])
      simp only [measure, List.length_set, hqueues]
      exact .right _ (.right _ (.right _ hlt))
  | turn closed waiting thread inbox sent hclosed hturn =>
      have hrooms : (b.rooms capacity waiting).length = b.receivers.length := by simp [rooms]
      have hdown := Broadcaster.turn_decreases hturn
      rw [hrooms] at hdown
      simp only [measure, length_deliver]
      rcases hdown with hlt | ⟨heq, hlt⟩
      · exact .right _ (.left _ _ (.left _ _ hlt))
      · rw [heq]
        exact .right _ (.left _ _ (.right _ hlt))

/-- No broadcast goes on for ever. -/
lemma not_exists_infinite (capacity : ℕ) :
    ¬∃ run : ℕ → Broadcast α ε, ∀ n, Step capacity (run n) (run (n + 1)) := by
  rintro ⟨run, hrun⟩
  exact (wellFounded_iff_isEmpty_descending_chain.1 Lower.wf).false
    ⟨fun n => (run n).measure, fun n => (hrun n).decreases⟩

/-! ### What everybody has accepted -/

/-- What is true of a broadcast of some items at every time. -/
structure Delivers (items : List α) (b : Broadcast α ε) : Prop where
  /-- Every receiver has accepted the first items, in order. -/
  inOrder : ∀ r ∈ b.receivers, r.accepted <+: items
  /-- No receiver is more than one item ahead of another. -/
  together : ∀ r ∈ b.receivers, ∀ r' ∈ b.receivers, r.accepted.length ≤ r'.accepted.length + 1
  /-- If the broadcaster has ended well it gives the number of items, and everybody has accepted
  all items. -/
  whole : ∀ sent, b.thread = .ended (.ok sent) →
    sent = items.length ∧ ∀ r ∈ b.receivers, r.accepted = items
  /-- If it has failed, it has lost a receiver when it sent some item to it: the receivers before
  this one have accepted the items up to this one, and the others those before it. -/
  lost : ∀ failure, b.thread = .ended (.error failure) →
    failure = .disconnected Broadcaster.name ∧
      ∃ before item after k r, items = before ++ item :: after ∧
        b.receivers[k]? = some r ∧ r.gone = true ∧ Split before item k b.receivers

lemma Split.accepted_cases (h : Split before item k receivers) (hr : r ∈ receivers) :
    r.accepted = before ++ [item] ∨ r.accepted = before := by
  obtain ⟨j, hj⟩ := List.mem_iff_getElem?.1 hr
  rw [h j r hj]
  split_ifs
  · exact .inl rfl
  · exact .inr rfl

/-- Receivers between which an item is being sent have accepted the first items, and none is more
than one ahead. -/
lemma Split.inOrder_together (h : Split before item k receivers)
    (hitems : items = before ++ item :: left) :
    (∀ r ∈ receivers, r.accepted <+: items) ∧
      ∀ r ∈ receivers, ∀ r' ∈ receivers, r.accepted.length ≤ r'.accepted.length + 1 := by
  refine ⟨fun r hr => ?_, fun r hr r' hr' => ?_⟩
  · rcases h.accepted_cases hr with heq | heq <;> rw [heq, hitems]
    · exact ⟨left, by simp⟩
    · exact List.prefix_append _ _
  · have hle : r.accepted.length ≤ before.length + 1 := by
      rcases h.accepted_cases hr with heq | heq <;> simp [heq]
    have hge : before.length ≤ r'.accepted.length := by
      rcases h.accepted_cases hr' with heq | heq <;> simp [heq]
    exact hle.trans (Nat.succ_le_succ hge)

/-- The invariant says what everybody has accepted. -/
lemma Stands.delivers (h : Stands items b.receivers left b.thread) : Delivers items b := by
  have same : ∀ {before : List α}, (∀ r ∈ b.receivers, r.accepted = before) → before <+: items →
      (∀ r ∈ b.receivers, r.accepted <+: items) ∧
        ∀ r ∈ b.receivers, ∀ r' ∈ b.receivers, r.accepted.length ≤ r'.accepted.length + 1 := by
    intro before hall hprefix
    refine ⟨fun r hr => (hall r hr).symm ▸ hprefix, fun r hr r' hr' => ?_⟩
    rw [hall r hr, hall r' hr']
    exact Nat.le_succ _
  generalize hthread : b.thread = thread at h
  cases h with
  | waiting before sent hsent hitems hall =>
      obtain ⟨hinOrder, htogether⟩ := same hall ⟨left, hitems.symm⟩
      exact ⟨hinOrder, htogether, by simp [hthread], by simp [hthread]⟩
  | delivering before item next sent hsent hitems hsplit =>
      obtain ⟨hinOrder, htogether⟩ := hsplit.inOrder_together hitems
      exact ⟨hinOrder, htogether, by simp [hthread], by simp [hthread]⟩
  | finished hall =>
      obtain ⟨hinOrder, htogether⟩ := same hall List.prefix_rfl
      refine ⟨hinOrder, htogether, fun sent hsent => ?_, by simp [hthread]⟩
      rw [hthread] at hsent
      cases hsent
      exact ⟨rfl, hall⟩
  | lost before item k r hitems hk hgone hsplit =>
      obtain ⟨hinOrder, htogether⟩ := hsplit.inOrder_together hitems
      refine ⟨hinOrder, htogether, by simp [hthread], fun failure hfailure => ?_⟩
      rw [hthread] at hfailure
      cases hfailure
      exact ⟨rfl, before, item, left, k, r, hitems, hk, hgone, hsplit⟩

/-- **Everybody is sent the same items in the same order.** Whatever the number of receivers and
the capacity of the queues, and whenever receivers take items or are gone: at every time all have
accepted the first items, and none is more than one ahead of another. The broadcaster ends, with
the number of items if none of its receivers is gone, and with a failure at the first item that it
sends to one that is. So it fails for certain when a receiver is gone that has not accepted all
items. -/
theorem delivers_alike (items : List α) (n capacity : ℕ) :
    (∀ b : Broadcast α ε, Relation.ReflTransGen (Step capacity) (start items n) b →
      b.receivers.length = n ∧ Delivers items b ∧
      (b.thread.hasEnded = false → ∃ b', Step capacity b b') ∧
      ((∀ r ∈ b.receivers, r.gone = false) → b.thread.hasEnded = true →
        b.thread = .ended (.ok items.length)) ∧
      (∀ r ∈ b.receivers, r.gone = true → r.accepted ≠ items →
        ∀ b', Relation.ReflTransGen (Step capacity) b b' → b'.thread.hasEnded = true →
          b'.thread = .ended (.error (.disconnected Broadcaster.name)))) ∧
    ¬∃ run : ℕ → Broadcast α ε, ∀ n, Step capacity (run n) (run (n + 1)) := by
  refine ⟨fun b hreach => ?_, not_exists_infinite capacity⟩
  have hdelivers := (stands_of_reachable hreach).delivers
  refine ⟨length_receivers hreach, hdelivers, exists_step, fun hstay hend => ?_,
    fun r hr hgone hmissing b' hreach' hend => ?_⟩
  · obtain ⟨result, hresult⟩ := Broadcaster.exists_eq_ended hend
    cases result with
    | ok sent => rw [hresult, (hdelivers.whole sent hresult).1]
    | error failure =>
        obtain ⟨-, _, _, _, _, r, -, hr, hgone, -⟩ := hdelivers.lost failure hresult
        rw [hstay r (List.mem_of_getElem? hr)] at hgone
        cases hgone
  · obtain ⟨k, hk⟩ := List.mem_iff_getElem?.1 hr
    have hdelivers' := (stands_of_reachable (hreach.trans hreach')).delivers
    have hr' := List.mem_of_getElem? (getElem?_of_reachable hk hgone hreach')
    obtain ⟨result, hresult⟩ := Broadcaster.exists_eq_ended hend
    cases result with
    | ok sent => exact absurd ((hdelivers'.whole sent hresult).2 r hr') hmissing
    | error failure => rw [hresult, (hdelivers'.lost failure hresult).1]

/-- Of two receivers the second is gone when the first of two items is sent to it. The first has
accepted the item by then, and the broadcaster fails. -/
theorem delivers_alike_lostReceiver : ∃ b : Broadcast Char Cause,
    Relation.ReflTransGen (Step 1) (start ['a', 'b'] 2) b ∧
      b.thread = .ended (.error (.disconnected Broadcaster.name)) ∧
      b.receivers.map Receiver.accepted = [['a'], []] ∧ Delivers ['a', 'b'] b := by
  have hqueue : Step 1 (start ['a', 'b'] 2 : Broadcast Char Cause)
      ⟨['b'], ['a'], .waiting 0, [⟨[], [], false⟩, ⟨[], [], false⟩]⟩ :=
    .queue 'a' ['b'] rfl rfl
  have htake : Step 1 ⟨['b'], ['a'], .waiting 0, [⟨[], [], false⟩, ⟨[], [], false⟩]⟩
      (⟨['b'], [], .delivering 'a' 0 0, [⟨[], [], false⟩, ⟨[], [], false⟩]⟩ :
        Broadcast Char Cause) :=
    .turn false (fun _ => 0) _ _ none nofun rfl
  have hsend : Step 1 ⟨['b'], [], .delivering 'a' 0 0, [⟨[], [], false⟩, ⟨[], [], false⟩]⟩
      (⟨['b'], [], .delivering 'a' 1 0, [⟨[], ['a'], false⟩, ⟨[], [], false⟩]⟩ :
        Broadcast Char Cause) :=
    .turn false (fun _ => 0) _ _ (some (0, 'a')) nofun rfl
  have hleave : Step 1 ⟨['b'], [], .delivering 'a' 1 0, [⟨[], ['a'], false⟩, ⟨[], [], false⟩]⟩
      (⟨['b'], [], .delivering 'a' 1 0, [⟨[], ['a'], false⟩, ⟨[], [], true⟩]⟩ :
        Broadcast Char Cause) :=
    .leave 1 ⟨[], [], false⟩ rfl rfl
  have hlose : Step 1 ⟨['b'], [], .delivering 'a' 1 0, [⟨[], ['a'], false⟩, ⟨[], [], true⟩]⟩
      (⟨['b'], [], .ended (.error (.disconnected Broadcaster.name)),
        [⟨[], ['a'], false⟩, ⟨[], [], true⟩]⟩ : Broadcast Char Cause) :=
    .turn false (fun _ => 0) _ _ none nofun rfl
  have hreach := ((((Relation.ReflTransGen.single hqueue).tail htake).tail hsend).tail hleave).tail
    hlose
  exact ⟨_, hreach, rfl, rfl, ((delivers_alike ['a', 'b'] 2 1).1 _ hreach).2.1⟩

end Broadcast

end CallCensus.Pipeline
