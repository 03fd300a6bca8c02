import CallCensus.Pattern.Search
import CallCensus.Proofs.Pattern.Ends
import CallCensus.Text.Pieces

/-!
The search for a pattern finds what the pattern means.

A search that does not give up comes to the first of the ends of its pattern, and fails when
there is none. This is proved for any state of the machine at once: what is left to do after
a pattern turns every end of it into an outcome, given the outcome of going back, and the
pattern before it folds these over its ends. The open branches below are kept in mind only
because a pattern of which the first match counts drops those above them.

* `Machine.Yields`, `Machine.GoesBackTo`: the outcome of a state and of going back;
* `Machine.finds`: the outcome of a pattern with something left to do after it;
* `attempt_agrees`: the outcome of a search at one place;
* `found`, `segments?_eq`: the matches in a text;
* `view_getD_segments?`: a search with something to fall back on.
-/

namespace CallCensus.Pattern

/-- Whether a search ends with the given match, or without one where none is given. One that gives
up agrees with anything. -/
def Attempt.Agrees : Attempt → Option Cursor → Prop
  | .matched final, outcome => outcome = some final
  | .failed _, outcome => outcome = none
  | .gaveUp, _ => True

namespace Machine

section Run

variable {m next : Machine} {left : ℕ}

lemma run_of_go (h : m.step = .go next) : run left m = run left next := by
  rw [run]
  split <;> simp_all

lemma run_of_done (h : m.step = .done) : run left m = .matched m.present.cursor := by
  rw [run]
  split <;> simp_all

lemma run_of_full (h : m.step = .full) : run left m = .gaveUp := by
  rw [run]
  split <;> simp_all

lemma run_of_stuck (h : m.step = .stuck) :
    run left m =
      match m.others with
      | [] => .failed left
      | b :: others =>
        if left < b.price then .gaveUp else run (left - b.price) ⟨b, others, m.height - 1⟩ := by
  rw [run]
  split <;> simp_all
  split <;> simp_all

end Run

/-- The outcome of a search that follows a branch, however often it may go back. -/
def Yields (present : Branch) (others : List Branch) (outcome : Option Cursor) : Prop :=
  ∀ left, (run left ⟨present, others, others.length⟩).Agrees outcome

/-- The outcome of a search that goes back to the latest open branch. -/
def GoesBackTo : List Branch → Option Cursor → Prop
  | [], outcome => outcome = none
  | b :: others, outcome => Yields b others outcome

variable {todo todo' : List Task} {cursor : Cursor} {depth : ℕ} {b b' : Branch}
  {others others' : List Branch} {outcome : Option Cursor}

/-- The outcome does not change in a move. -/
lemma yields_of_step
    (hstep : step ⟨b, others, others.length⟩ = .go ⟨b', others', others'.length⟩)
    (h : Yields b' others' outcome) : Yields b others outcome := by
  intro left
  rw [run_of_go hstep]
  exact h left

/-- A branch that comes to nothing has the outcome of going back. -/
lemma yields_of_stuck (hstep : step ⟨b, others, others.length⟩ = .stuck)
    (h : GoesBackTo others outcome) : Yields b others outcome := by
  intro left
  rw [run_of_stuck hstep]
  cases others with
  | nil => exact h
  | cons b' others =>
      simp only
      split_ifs
      · trivial
      · exact h _

/-- A search that opens a branch gives up, or has the outcome of the way that it goes first. -/
lemma yields_of_fork {other : List Task}
    (hstep : step ⟨b, others, others.length⟩ =
      fork ⟨b, others, others.length⟩ todo' other)
    (h : Yields { b with todo := todo' } ({ b with todo := other } :: others) outcome) :
    Yields b others outcome := by
  rw [fork] at hstep
  split_ifs at hstep
  · intro left
    rw [run_of_full hstep]
    trivial
  · exact yields_of_step hstep h

lemma step_cut (above : List Branch) :
    step ⟨⟨.cut others.length :: todo, cursor, depth + 1⟩, above ++ others,
        (above ++ others).length⟩ =
      .go ⟨⟨todo, cursor, depth⟩, others, others.length⟩ := by
  simp [step, leave]

lemma step_rewind (above : List Branch) (back : Cursor) :
    step ⟨⟨.rewind others.length back :: todo, cursor, depth + 1⟩, above ++ others,
        (above ++ others).length⟩ =
      .go ⟨⟨todo, { back with groups := cursor.groups }, depth⟩, others, others.length⟩ := by
  simp [step, leave]

/-- What `todo` makes of the given ends: each becomes an outcome that depends on the outcome
of going back, whatever branches are open above `others`. -/
def Continues (todo : List Task) (depth : ℕ) (others : List Branch) (ends : List Cursor)
    (next : Cursor → Option Cursor → Option Cursor) : Prop :=
  ∀ there ∈ ends, ∀ above outcome, GoesBackTo (above ++ others) outcome →
    Yields ⟨todo, there, depth⟩ (above ++ others) (next there outcome)

namespace Continues

variable {ends ends' : List Cursor} {next : Cursor → Option Cursor → Option Cursor}

lemma mono (h : Continues todo depth others ends next) (hsub : ∀ there ∈ ends', there ∈ ends) :
    Continues todo depth others ends' next :=
  fun there hthere => h there (hsub there hthere)

lemma append (h : Continues todo depth others ends next) (above : List Branch) :
    Continues todo depth (above ++ others) ends next := by
  intro there hthere above' outcome hback
  rw [← List.append_assoc] at hback ⊢
  exact h there hthere (above' ++ above) outcome hback

lemma yields (h : Continues todo depth others ends next) (hback : GoesBackTo others outcome)
    {there : Cursor} (hthere : there ∈ ends) :
    Yields ⟨todo, there, depth⟩ others (next there outcome) :=
  h there hthere [] outcome hback

end Continues

/-- The outcome of a pattern with something left to do after it, for a pattern. -/
def Finds (p : Pattern) : Prop :=
  ∀ todo cursor depth others outcome next, Continues todo depth others (p.ends cursor) next →
    GoesBackTo others outcome →
      Yields ⟨.find p :: todo, cursor, depth⟩ others ((p.ends cursor).foldr next outcome)

lemma yields_of_proceedIf {ok : Bool} {next : Cursor → Option Cursor → Option Cursor}
    (hstep : step ⟨⟨todo, cursor, depth⟩, others, others.length⟩ =
      proceedIf ⟨⟨todo, cursor, depth⟩, others, others.length⟩ ok todo')
    (h : Continues todo' depth others (if ok then [cursor] else []) next)
    (hback : GoesBackTo others outcome) :
    Yields ⟨todo, cursor, depth⟩ others
      ((if ok then [cursor] else []).foldr next outcome) := by
  cases ok with
  | true => exact yields_of_step hstep (h.yields hback List.mem_cons_self)
  | false => exact yields_of_stuck hstep hback

lemma yields_of_proceedAt {there : Option Cursor} {next : Cursor → Option Cursor → Option Cursor}
    (hstep : step ⟨⟨todo, cursor, depth⟩, others, others.length⟩ =
      proceedAt ⟨⟨todo, cursor, depth⟩, others, others.length⟩ todo' there)
    (h : Continues todo' depth others there.toList next) (hback : GoesBackTo others outcome) :
    Yields ⟨todo, cursor, depth⟩ others (there.toList.foldr next outcome) := by
  cases there with
  | some there => exact yields_of_step hstep (h.yields hback List.mem_cons_self)
  | none => exact yields_of_stuck hstep hback

lemma finds_seq {p q : Pattern} (hp : Finds p) (hq : Finds q) : Finds (seq p q) := by
  intro todo cursor depth others outcome next hnext hback
  have hthen : Continues (.find q :: todo) depth others (p.ends cursor)
      fun there outcome => (q.ends there).foldr next outcome := by
    intro there hthere above outcome' hback'
    have hsub : ∀ further ∈ q.ends there, further ∈ (seq p q).ends cursor :=
      fun further hfurther => List.mem_flatMap.2 ⟨there, hthere, hfurther⟩
    exact hq todo there _ _ _ _ ((hnext.mono hsub).append above) hback'
  have h := hp _ cursor _ _ _ _ hthen hback
  rw [ends, List.foldr_flatMap]
  exact yields_of_step rfl h

lemma finds_alt {p q : Pattern} (hp : Finds p) (hq : Finds q) : Finds (alt p q) := by
  intro todo cursor depth others outcome next hnext hback
  have hsecond := hq todo cursor depth others outcome next
    (hnext.mono fun _ h => List.mem_append_right _ h) hback
  have hfirst := hp todo cursor depth (⟨.find q :: todo, cursor, depth⟩ :: others) _ next
    ((hnext.mono fun _ h => List.mem_append_left _ h).append
      [⟨.find q :: todo, cursor, depth⟩])
    hsecond
  rw [ends, List.foldr_append]
  exact yields_of_fork rfl hfirst

/-- One round of a repetition, and then more of them. -/
lemma continues_onward {p q : Pattern} {next : Cursor → Option Cursor → Option Cursor}
    (hreaches : ∀ there ∈ p.ends cursor, cursor.Reaches there)
    (hfinds : ∀ there ∈ p.ends cursor, there.rest.length < cursor.rest.length →
      ∀ above outcome, GoesBackTo (above ++ others) outcome →
        Yields ⟨.find q :: todo, there, depth⟩ (above ++ others)
          ((q.ends there).foldr next outcome)) :
    Continues (.onward q cursor.taken :: todo) depth others (p.ends cursor) fun there outcome =>
      (if there.rest.length < cursor.rest.length then q.ends there else []).foldr next outcome := by
  intro there hthere above outcome hback
  have hlength := (hreaches there hthere).taken_add_length
  by_cases hlt : there.rest.length < cursor.rest.length
  · have htaken : cursor.taken < there.taken := by omega
    simp only [if_pos hlt]
    refine yields_of_step ?_ (hfinds there hthere hlt above outcome hback)
    rw [step]
    exact if_pos htaken
  · have htaken : ¬cursor.taken < there.taken := by omega
    simp only [if_neg hlt]
    refine yields_of_stuck ?_ hback
    rw [step]
    exact if_neg htaken

/-- The outcome of a repetition, as often as possible. -/
lemma finds_many {p : Pattern} (hp : Finds p) : Finds (many p) := by
  intro todo cursor depth others outcome next hnext hback
  induction hn : cursor.rest.length using Nat.strongRecOn
    generalizing cursor others outcome with
  | ind n ih =>
      have hreaches := reaches_of_mem_ends p cursor
      have hends := ends_many p cursor
      have hstay : GoesBackTo (⟨todo, cursor, depth⟩ :: others) (next cursor outcome) :=
        hnext.yields hback (by simp [hends])
      have hround : Continues (.onward (many p) cursor.taken :: todo) depth
          (⟨todo, cursor, depth⟩ :: others) (p.ends cursor) fun there outcome' =>
            (if there.rest.length < cursor.rest.length then (many p).ends there else []).foldr
              next outcome' := by
        refine continues_onward hreaches fun there hthere hlt above outcome' hback' => ?_
        refine ih _ (hn ▸ hlt) there _ _ ?_ hback' rfl
        have hsub : ∀ further ∈ (many p).ends there, further ∈ (many p).ends cursor := by
          intro further hfurther
          rw [hends, List.mem_append, List.mem_flatMap]
          exact .inl ⟨there, hthere, by rwa [if_pos hlt]⟩
        have habove := (hnext.mono hsub).append (above ++ [⟨todo, cursor, depth⟩])
        simpa using habove
      have h := hp _ cursor _ _ _ _ hround hstay
      rw [hends, List.foldr_append, List.foldr_flatMap]
      exact yields_of_fork rfl h

/-- The outcome of a repetition, as seldom as possible. -/
lemma finds_few {p : Pattern} (hp : Finds p) : Finds (few p) := by
  intro todo cursor depth others outcome next hnext hback
  induction hn : cursor.rest.length using Nat.strongRecOn
    generalizing cursor others outcome with
  | ind n ih =>
      have hreaches := reaches_of_mem_ends p cursor
      have hends := ends_few p cursor
      have hround : Continues (.onward (few p) cursor.taken :: todo) depth others (p.ends cursor)
          fun there outcome' =>
            (if there.rest.length < cursor.rest.length then (few p).ends there else []).foldr
              next outcome' := by
        refine continues_onward hreaches fun there hthere hlt above outcome' hback' => ?_
        refine ih _ (hn ▸ hlt) there _ _ ?_ hback' rfl
        have hsub : ∀ further ∈ (few p).ends there, further ∈ (few p).ends cursor := by
          intro further hfurther
          rw [hends, List.mem_cons, List.mem_flatMap]
          exact .inr ⟨there, hthere, by rwa [if_pos hlt]⟩
        exact (hnext.mono hsub).append above
      have h := hp _ cursor _ _ _ _ hround hback
      rw [hends, List.foldr_cons, List.foldr_flatMap]
      exact yields_of_fork rfl (hnext cursor (by simp [hends])
        [⟨.find p :: .onward (few p) cursor.taken :: todo, cursor, depth⟩] _ h)

/-- Every state has an outcome. -/
lemma exists_agrees (m : Machine) : ∃ outcome, ∀ left, (run left m).Agrees outcome := by
  induction hn : m.cost using Nat.strongRecOn generalizing m with
  | ind n ih =>
      cases hstep : m.step with
      | go next =>
          obtain ⟨outcome, h⟩ := ih _ (hn ▸ cost_lt_of_step hstep) next rfl
          exact ⟨outcome, fun left => run_of_go hstep ▸ h left⟩
      | done => exact ⟨some m.present.cursor, fun left => by rw [run_of_done hstep]; rfl⟩
      | full => exact ⟨none, fun left => by rw [run_of_full hstep]; trivial⟩
      | stuck =>
          cases hothers : m.others with
          | nil => exact ⟨none, fun left => by rw [run_of_stuck hstep, hothers]; rfl⟩
          | cons b others =>
              obtain ⟨outcome, h⟩ := ih _ (hn ▸ cost_lt_of_others hothers (m.height - 1)) _ rfl
              refine ⟨outcome, fun left => ?_⟩
              rw [run_of_stuck hstep, hothers]
              simp only
              split_ifs
              · trivial
              · exact h _

/-- When only the first way to match counts, its outcome is the result. The other ways have some
outcome as well, which is never asked for. -/
lemma exists_result {ends : List Cursor} {next : Cursor → Option Cursor → Option Cursor}
    (f : Cursor → Cursor) (hnext : Continues todo depth others (ends.head?.toList.map f) next)
    (hback : GoesBackTo others outcome) :
    ∃ result : Cursor → Option Cursor,
      (∀ there ∈ ends, Yields ⟨todo, f there, depth⟩ others (result there)) ∧
      ends.foldr (fun there _ => result there) outcome =
        (ends.head?.toList.map f).foldr next outcome := by
  classical
  cases ends with
  | nil => exact ⟨fun _ => outcome, fun there hthere => (List.not_mem_nil hthere).elim, rfl⟩
  | cons first more =>
      choose other hother using fun there =>
        exists_agrees ⟨⟨todo, f there, depth⟩, others, others.length⟩
      refine ⟨fun there => if there = first then next (f there) outcome else other there,
        fun there _ => ?_, by simp⟩
      simp only
      split_ifs with hfirst
      · subst hfirst
        exact hnext.yields hback (by simp)
      · exact hother there

lemma finds_ahead {p : Pattern} (hp : Finds p) : Finds (ahead p) := by
  intro todo cursor depth others outcome next hnext hback
  obtain ⟨result, hresult, hfold⟩ :=
    exists_result (fun there => { cursor with groups := there.groups }) hnext hback
  have hrewind : Continues (.rewind others.length cursor :: todo) (depth + 1) others
      (p.ends cursor) fun there _ => result there := by
    intro there hthere above outcome' hback'
    exact yields_of_step (step_rewind above cursor) (hresult there hthere)
  rw [ends, ← hfold]
  exact yields_of_step rfl (hp _ cursor _ _ _ _ hrewind hback)

lemma finds_commit {p : Pattern} (hp : Finds p) : Finds (commit p) := by
  intro todo cursor depth others outcome next hnext hback
  rw [ends, ← List.map_id (p.ends cursor).head?.toList] at hnext ⊢
  obtain ⟨result, hresult, hfold⟩ := exists_result id hnext hback
  have hcut : Continues (.cut others.length :: todo) (depth + 1) others (p.ends cursor)
      fun there _ => result there := by
    intro there hthere above outcome' hback'
    exact yields_of_step (step_cut above) (hresult there hthere)
  rw [← hfold]
  exact yields_of_step rfl (hp _ cursor _ _ _ _ hcut hback)

lemma finds_notAfter (ok : Char → Bool) : Finds (notAfter ok) := by
  intro todo cursor depth others outcome next hnext hback
  rw [ends] at hnext ⊢
  split_ifs at hnext ⊢ with hafter
  · exact yields_of_stuck (if_pos hafter) hback
  · have hfail : Yields ⟨[.fail], cursor, depth⟩ (⟨todo, cursor, depth⟩ :: others)
        (next cursor outcome) :=
      yields_of_stuck rfl (hnext.yields hback List.mem_cons_self)
    exact yields_of_fork (if_neg hafter) hfail

lemma finds_group (n : ℕ) {p : Pattern} (hp : Finds p) : Finds (group n p) := by
  intro todo cursor depth others outcome next hnext hback
  have hclose : Continues (.close n cursor :: todo) depth others (p.ends cursor)
      fun there => next (there.close n cursor) := by
    intro there hthere above outcome' hback'
    exact yields_of_step rfl
      (hnext _ (List.mem_map.2 ⟨there, hthere, rfl⟩) above outcome' hback')
  have h := hp _ cursor _ _ _ _ hclose hback
  rw [ends, List.foldr_map]
  exact yields_of_step rfl h

/-- **The search for a pattern goes through its ends in order.** -/
theorem finds (p : Pattern) : Finds p := by
  induction p with
  | one ok =>
      intro todo cursor depth others outcome next hnext hback
      exact yields_of_proceedAt rfl hnext hback
  | empty =>
      intro todo cursor depth others outcome next hnext hback
      exact yields_of_step rfl (hnext.yields hback List.mem_cons_self)
  | seq p q hp hq => exact finds_seq hp hq
  | alt p q hp hq => exact finds_alt hp hq
  | many p hp => exact finds_many hp
  | few p hp => exact finds_few hp
  | textStart =>
      intro todo cursor depth others outcome next hnext hback
      exact yields_of_proceedIf rfl hnext hback
  | textEnd =>
      intro todo cursor depth others outcome next hnext hback
      exact yields_of_proceedIf rfl hnext hback
  | ahead p hp => exact finds_ahead hp
  | commit p hp => exact finds_commit hp
  | notAfter ok => exact finds_notAfter ok
  | group n p hp => exact finds_group n hp
  | same n =>
      intro todo cursor depth others outcome next hnext hback
      exact yields_of_proceedAt rfl hnext hback

end Machine

/-! ### Matches in a text -/

/-- A search at one place agrees with what the pattern means, unless it gives up. -/
lemma attempt_agrees (p : Pattern) (left : ℕ) (before : Option Char) (s : Text) :
    (attempt p left before s).Agrees (p.first? (.start before s)) := by
  have hdone : Machine.Continues [] 0 [] (p.ends (.start before s)) fun there _ => some there := by
    intro there _ above outcome _ left
    rw [Machine.run_of_done rfl]
    rfl
  have h := Machine.finds p [] (.start before s) 0 [] none _ hdone rfl left
  rw [first?]
  cases hends : p.ends (.start before s) <;> rw [hends] at h <;> exact h

/-- The matches in a text and the characters between them, as the pattern means them. -/
def found (p : Pattern) (before : Option Char) : Text → List Segment
  | [] => []
  | c :: rest =>
    match p.first? (.start before (c :: rest)) with
    | none => .plain c :: found p (some c) rest
    | some final =>
      if final.taken = 0 then .plain c :: found p (some c) rest
      else
        .hit ⟨c :: rest.take (final.taken - 1), final.groups⟩ ::
          found p final.before (rest.drop (final.taken - 1))
termination_by s => s.length
decreasing_by all_goals simp only [List.length_drop, List.length_cons]; omega

/-- Where nothing matches, the search goes on one character further. -/
lemma found_of_none {p : Pattern} {before : Option Char} {c : Char} {rest : Text}
    (h : p.first? (.start before (c :: rest)) = none) :
    found p before (c :: rest) = .plain c :: found p (some c) rest := by
  rw [found, h]

/-- After a match that takes something, the search goes on where it ends. -/
lemma found_of_first? {p : Pattern} {before : Option Char} {c : Char} {rest : Text}
    {there : Cursor} (h : p.first? (.start before (c :: rest)) = some there)
    (hlt : there.rest.length < (c :: rest).length) :
    found p before (c :: rest) =
      .hit ⟨(c :: rest).take there.taken, there.groups⟩ :: found p there.before there.rest := by
  have hreaches := reaches_of_mem_ends p _ there (mem_ends_of_first? h)
  have hrest : there.rest = (c :: rest).drop there.taken := hreaches.rest_eq_drop
  have hlength : there.taken + there.rest.length = 0 + (c :: rest).length :=
    hreaches.taken_add_length
  obtain ⟨k, hk⟩ := Nat.exists_eq_succ_of_ne_zero (n := there.taken) (by omega)
  rw [hk, List.drop_succ_cons] at hrest
  rw [found, h]
  simp only [hk, Nat.succ_ne_zero, if_false, Nat.succ_sub_one, List.take_succ_cons, hrest]

/-- A search that does not give up finds the matches that the pattern means, after those that
it has found before. -/
lemma segmentsOnto?_eq {p : Pattern} {limit left : ℕ} {before : Option Char} {s : Text}
    {done segments : List Segment}
    (h : segmentsOnto? p limit left done before s = some segments) :
    segments = done.reverse ++ found p before s := by
  induction hn : s.length using Nat.strongRecOn generalizing left s before done with
  | ind n ih =>
      have hagrees := attempt_agrees p left before s
      cases s with
      | nil =>
          rw [segmentsOnto?] at h
          rw [found, List.append_nil]
          split at h <;> cases h
          rfl
      | cons c rest =>
          have hlt : ∀ k, (rest.drop k).length < n := hn ▸ Text.length_drop_lt c rest
          rw [segmentsOnto?] at h
          rw [found]
          split at h
          · cases h
          · cases h
          · rename_i left' hattempt
            have hnone : p.first? (.start before (c :: rest)) = none := by
              rw [hattempt] at hagrees
              exact hagrees
            rw [hnone]
            simpa using ih _ (hlt 0) h rfl
          · rename_i final hattempt
            have hsome : p.first? (.start before (c :: rest)) = some final := by
              rw [hattempt] at hagrees
              exact hagrees
            rw [hsome]
            split_ifs at h with htaken
            · simpa [htaken] using ih _ (hlt 0) h rfl
            · simpa [htaken] using ih _ (hlt _) h rfl

/-- **A search that does not give up finds the matches that the pattern means.** -/
theorem segments?_eq {p : Pattern} {limit : ℕ} {s : Text} {segments : List Segment}
    (h : segments? p limit s = some segments) : segments = found p none s :=
  segmentsOnto?_eq h

section Fallback

variable {α β : Type} {p : Pattern} {s : Text} {read : List Segment → α}

/-- What is read off a search that does not give up. -/
lemma eq_of_map_segments? {limit : ℕ} {out : α} (h : (segments? p limit s).map read = some out) :
    out = read (found p none s) := by
  obtain ⟨segments, hsegments, rfl⟩ := Option.map_eq_some_iff.1 h
  rw [segments?_eq hsegments]

/-- A fallback that agrees with what the pattern means, as far as `view` can tell, agrees with
what is taken from a search or, where that gives up, from the fallback. -/
lemma view_getD_segments? (view : α → β) {fallback : α}
    (h : view (read (found p none s)) = view fallback) (limit : ℕ) :
    view (((segments? p limit s).map read).getD fallback) = view fallback := by
  cases hsearch : (segments? p limit s).map read with
  | none => rfl
  | some out => rw [Option.getD_some, eq_of_map_segments? hsearch, h]

end Fallback

end CallCensus.Pattern
