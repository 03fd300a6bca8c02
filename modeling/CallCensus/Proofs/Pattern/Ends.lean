import CallCensus.Pattern.Meaning
import Mathlib.Data.List.Forall2
import Mathlib.Tactic.Common

/-!
Where a match may end.

Every end of a match is a place further on in the text. Which places these are can be read
off the pattern in two ways: as a set, where the order of preference does not matter because
there is only one end or because all of them will do, and by the first of them, which is the
match. A repetition is opened one round at a time in both.

* `Cursor.after`, `reaches_of_mem_ends`: the ends are places further on;
* `mem_ends_many`, `mem_ends_many_one`, `mem_ends_sequence_one`, `mem_ends_exactly`: the ends as
  a set;
* `occursIn_iff`: matches anywhere in a text;
* `first?`: the match at a place;
* `first?_seq_of_total`, `first?_few_seq`: the first end of a sequence.
-/

namespace CallCensus.Pattern

/-! ### Places further on -/

namespace Cursor

/-- The place after the part `u` of the text, which leaves `rest`. -/
def after (here : Cursor) (u rest : Text) : Cursor :=
  ⟨u.getLast?.or here.before, rest, here.taken + u.length, here.groups⟩

/-- A place that is reached from another by taking a part of the text, groups apart. -/
def Reaches (here there : Cursor) : Prop :=
  ∃ u, here.rest = u ++ there.rest ∧ there.taken = here.taken + u.length ∧
    there.before = u.getLast?.or here.before

@[simp] lemma rest_after (here : Cursor) (u rest : Text) : (here.after u rest).rest = rest := rfl

@[simp] lemma taken_after (here : Cursor) (u rest : Text) :
    (here.after u rest).taken = here.taken + u.length := rfl

@[simp] lemma after_nil (here : Cursor) : here.after [] here.rest = here := rfl

lemma length_rest_after_lt {here : Cursor} {c : Char} {u rest : Text}
    (h : here.rest = c :: (u ++ rest)) :
    (here.after (c :: u) rest).rest.length < here.rest.length := by
  rw [rest_after, h, List.length_cons, List.length_append]
  omega

lemma after_after (here : Cursor) (u v rest rest' : Text) :
    (here.after u rest).after v rest' = here.after (u ++ v) rest' := by
  simp [after, List.getLast?_append, Option.or_assoc, Nat.add_assoc]

namespace Reaches

variable {here there further : Cursor}

lemma refl (here : Cursor) : here.Reaches here :=
  ⟨[], rfl, rfl, rfl⟩

lemma trans (h : here.Reaches there) (h' : there.Reaches further) : here.Reaches further := by
  obtain ⟨u, hu, htaken, hbefore⟩ := h
  obtain ⟨v, hv, htaken', hbefore'⟩ := h'
  refine ⟨u ++ v, by rw [hu, hv, List.append_assoc], ?_, ?_⟩
  · rw [htaken', htaken, List.length_append, Nat.add_assoc]
  · rw [hbefore', hbefore, List.getLast?_append, Option.or_assoc]

lemma with_groups (h : here.Reaches there) (groups : List (ℕ × Span)) :
    here.Reaches { there with groups := groups } := h

lemma taken_add_length (h : here.Reaches there) :
    there.taken + there.rest.length = here.taken + here.rest.length := by
  obtain ⟨u, hu, htaken, -⟩ := h
  rw [htaken, hu, List.length_append]
  omega

lemma taken_eq (h : here.Reaches there) {u : Text} (hrest : here.rest = u ++ there.rest) :
    there.taken = here.taken + u.length := by
  have hlength := h.taken_add_length
  rw [hrest, List.length_append] at hlength
  omega

lemma rest_eq_drop (h : here.Reaches there) :
    there.rest = here.rest.drop (there.taken - here.taken) := by
  obtain ⟨u, hu, htaken, -⟩ := h
  rw [htaken, Nat.add_sub_cancel_left, hu, List.drop_left]

lemma length_le (h : here.Reaches there) : there.rest.length ≤ here.rest.length := by
  obtain ⟨u, hu, -, -⟩ := h
  rw [hu, List.length_append]
  exact Nat.le_add_left _ _

end Reaches

/-- One character of a class. -/
lemma reaches_of_next? {ok : Char → Bool} {here there : Cursor} (h : here.next? ok = some there) :
    here.Reaches there := by
  rw [next?] at h
  split at h
  · cases h
  · rename_i c rest hrest
    split_ifs at h
    cases h
    exact ⟨[c], hrest, rfl, rfl⟩

/-- A given text once more. -/
lemma reaches_of_afterCopy? {here there : Cursor} {s : Text} {length : ℕ}
    (h : here.afterCopy? s length = some there) : here.Reaches there := by
  induction length generalizing here s with
  | zero =>
      cases s <;> cases h <;> exact .refl _
  | succ length ih =>
      cases s with
      | nil => cases h; exact .refl _
      | cons c s =>
          rw [afterCopy?] at h
          split at h
          · cases h
          · rename_i hnext
            exact (reaches_of_next? hnext).trans (ih h)

end Cursor

/-! ### One round of a repetition -/

/-- What holds of no round, and of one more round whenever it holds of those after it, holds
of a repetition. -/
lemma rel_of_mem_ends_many {p : Pattern} {R : Cursor → Cursor → Prop} (hrefl : ∀ c, R c c)
    (hround : ∀ here, ∀ next ∈ p.ends here, ∀ there, R next there → R here there)
    (here : Cursor) : ∀ there ∈ (many p).ends here, R here there := by
  induction hn : here.rest.length using Nat.strongRecOn generalizing here with
  | ind n ih =>
      intro there hthere
      rw [ends_many, List.mem_append, List.mem_singleton, List.mem_flatMap] at hthere
      rcases hthere with ⟨next, hnext, hthere⟩ | rfl
      · split_ifs at hthere with hlt
        · exact hround here next hnext there (ih _ (hn ▸ hlt) next rfl there hthere)
        · cases hthere
      · exact hrefl there

/-- The same for repetitions that are as short as possible. -/
lemma rel_of_mem_ends_few {p : Pattern} {R : Cursor → Cursor → Prop} (hrefl : ∀ c, R c c)
    (hround : ∀ here, ∀ next ∈ p.ends here, ∀ there, R next there → R here there)
    (here : Cursor) : ∀ there ∈ (few p).ends here, R here there := by
  induction hn : here.rest.length using Nat.strongRecOn generalizing here with
  | ind n ih =>
      intro there hthere
      rw [ends_few, List.mem_cons, List.mem_flatMap] at hthere
      rcases hthere with rfl | ⟨next, hnext, hthere⟩
      · exact hrefl there
      · split_ifs at hthere with hlt
        · exact hround here next hnext there (ih _ (hn ▸ hlt) next rfl there hthere)
        · cases hthere

/-- What is the same before and after each round is the same before and after a
repetition. -/
lemma eq_of_mem_ends_many {p : Pattern} {γ : Type} {f : Cursor → γ}
    (hround : ∀ here, ∀ next ∈ p.ends here, f here = f next) {here there : Cursor}
    (h : there ∈ (many p).ends here) : f here = f there :=
  rel_of_mem_ends_many (R := fun here there => f here = f there) (fun _ => rfl)
    (fun here next hnext _ hthere => (hround here next hnext).trans hthere) here there h

/-- Every end of a match is a place further on. -/
lemma reaches_of_mem_ends (p : Pattern) :
    ∀ here, ∀ there ∈ p.ends here, here.Reaches there := by
  induction p with
  | one ok =>
      intro here there h
      exact Cursor.reaches_of_next? (Option.mem_toList.1 h)
  | empty =>
      intro here there h
      rw [ends, List.mem_singleton] at h
      exact h ▸ .refl here
  | seq p q hp hq =>
      intro here there h
      obtain ⟨next, hnext, hthere⟩ := List.mem_flatMap.1 h
      exact (hp here next hnext).trans (hq next there hthere)
  | alt p q hp hq =>
      intro here there h
      rcases List.mem_append.1 h with h | h
      · exact hp here there h
      · exact hq here there h
  | many p hp =>
      exact rel_of_mem_ends_many .refl fun here next hnext there => (hp here next hnext).trans
  | few p hp =>
      exact rel_of_mem_ends_few .refl fun here next hnext there => (hp here next hnext).trans
  | textStart =>
      intro here there h
      rw [ends] at h
      split_ifs at h
      · exact List.mem_singleton.1 h ▸ .refl here
      · cases h
  | textEnd =>
      intro here there h
      rw [ends] at h
      split_ifs at h
      · exact List.mem_singleton.1 h ▸ .refl here
      · cases h
  | ahead p hp =>
      intro here there h
      obtain ⟨next, -, rfl⟩ := List.mem_map.1 h
      exact (Cursor.Reaches.refl here).with_groups next.groups
  | commit p hp =>
      intro here there h
      exact hp here there (List.mem_of_mem_head? (Option.mem_toList.1 h))
  | notAfter ok =>
      intro here there h
      rw [ends] at h
      split_ifs at h
      · cases h
      · exact List.mem_singleton.1 h ▸ .refl here
  | group n p hp =>
      intro here there h
      obtain ⟨next, hnext, rfl⟩ := List.mem_map.1 h
      exact (hp here next hnext).with_groups _
  | same n =>
      intro here there h
      have h := Option.mem_toList.1 h
      rw [Cursor.afterGroup?] at h
      split at h
      · cases h
      · exact Cursor.reaches_of_afterCopy? h

/-! ### Patterns without groups -/

/-- Whether a pattern has no groups and asks for none. -/
def groupless : Pattern → Bool
  | seq p q => p.groupless && q.groupless
  | alt p q => p.groupless && q.groupless
  | many p => p.groupless
  | few p => p.groupless
  | ahead p => p.groupless
  | commit p => p.groupless
  | group _ _ => false
  | same _ => false
  | _ => true

/-- A pattern without groups leaves the groups as they are. -/
lemma groups_of_mem_ends (p : Pattern) (hp : p.groupless = true) :
    ∀ here, ∀ there ∈ p.ends here, there.groups = here.groups := by
  induction p with
  | one ok =>
      intro here there h
      rw [ends, Option.mem_toList, Cursor.next?] at h
      split at h
      · cases h
      · split_ifs at h
        cases h
        rfl
  | empty =>
      intro here there h
      rw [List.mem_singleton.1 h]
  | seq p q ihp ihq =>
      intro here there h
      obtain ⟨hp, hq⟩ := Bool.and_eq_true_iff.1 hp
      obtain ⟨mid, hmid, hthere⟩ := List.mem_flatMap.1 h
      exact (ihq hq mid there hthere).trans (ihp hp here mid hmid)
  | alt p q ihp ihq =>
      intro here there h
      obtain ⟨hp, hq⟩ := Bool.and_eq_true_iff.1 hp
      rcases List.mem_append.1 h with h | h
      · exact ihp hp here there h
      · exact ihq hq here there h
  | many p ih =>
      exact fun here there h => (eq_of_mem_ends_many (f := Cursor.groups)
        (fun here next hnext => (ih hp here next hnext).symm) h).symm
  | few p ih =>
      exact rel_of_mem_ends_few (R := fun here there => there.groups = here.groups)
        (fun _ => rfl) fun here next hnext there h => h.trans (ih hp here next hnext)
  | textStart =>
      intro here there h
      rw [ends] at h
      split_ifs at h
      · rw [List.mem_singleton.1 h]
      · cases h
  | textEnd =>
      intro here there h
      rw [ends] at h
      split_ifs at h
      · rw [List.mem_singleton.1 h]
      · cases h
  | ahead p ih =>
      intro here there h
      obtain ⟨next, hnext, rfl⟩ := List.mem_map.1 h
      exact ih hp here next (List.mem_of_mem_head? (Option.mem_toList.1 hnext))
  | commit p ih =>
      intro here there h
      exact ih hp here there (List.mem_of_mem_head? (Option.mem_toList.1 h))
  | notAfter ok =>
      intro here there h
      rw [ends] at h
      split_ifs at h
      · cases h
      · rw [List.mem_singleton.1 h]
  | group n p => cases hp
  | same n => cases hp

/-! ### The ends as a set -/

variable {p q : Pattern} {here there : Cursor}

lemma ends_sequence_cons (p : Pattern) (ps : List Pattern) (here : Cursor) :
    (sequence (p :: ps)).ends here = (p.ends here).flatMap (sequence ps).ends := by
  cases ps with
  | nil =>
      have hempty : (sequence []).ends = fun there => [there] := rfl
      rw [hempty, List.flatMap_singleton']
      rfl
  | cons q ps => rfl

lemma mem_ends_sequence_cons {ps : List Pattern} :
    there ∈ (sequence (p :: ps)).ends here ↔
      ∃ mid ∈ p.ends here, there ∈ (sequence ps).ends mid := by
  rw [ends_sequence_cons, List.mem_flatMap]

lemma mem_ends_sequence_nil : there ∈ (sequence []).ends here ↔ there = here :=
  List.mem_singleton

/-- One character of a class. -/
lemma mem_ends_one {ok : Char → Bool} :
    there ∈ (one ok).ends here ↔
      ∃ c rest, ok c = true ∧ here.rest = c :: rest ∧ there = here.after [c] rest := by
  rw [ends, Option.mem_toList, Cursor.next?]
  constructor
  · intro h
    split at h
    · cases h
    · rename_i c rest hrest
      split_ifs at h with hc
      cases h
      exact ⟨c, rest, hc, hrest, rfl⟩
  · rintro ⟨c, rest, hc, hrest, rfl⟩
    simp only [hrest, if_pos hc]
    rfl

/-- No round, or one that takes something and then more of them. -/
lemma mem_ends_many :
    there ∈ (many p).ends here ↔
      there = here ∨
        ∃ next ∈ p.ends here, next.rest.length < here.rest.length ∧
          there ∈ (many p).ends next := by
  rw [ends_many, List.mem_append, List.mem_singleton, List.mem_flatMap, or_comm]
  refine or_congr_right (exists_congr fun next => and_congr_right fun _ => ?_)
  split_ifs with hlt
  · exact (and_iff_right hlt).symm
  · exact ⟨fun h => (List.not_mem_nil h).elim, fun h => (hlt h.1).elim⟩

lemma mem_ends_many_of_round {next : Cursor} (hnext : next ∈ p.ends here)
    (hlt : next.rest.length < here.rest.length) (hthere : there ∈ (many p).ends next) :
    there ∈ (many p).ends here :=
  mem_ends_many.2 (.inr ⟨next, hnext, hlt, hthere⟩)

/-- Any number of characters of a class. -/
lemma mem_ends_many_one {ok : Char → Bool} :
    there ∈ (many (one ok)).ends here ↔
      ∃ u rest, (∀ c ∈ u, ok c = true) ∧ here.rest = u ++ rest ∧
        there = here.after u rest := by
  constructor
  · refine rel_of_mem_ends_many (R := fun here there => ∃ u rest, (∀ c ∈ u, ok c = true) ∧
      here.rest = u ++ rest ∧ there = here.after u rest) ?_ ?_ here there
    · exact fun here => ⟨[], here.rest, by simp, rfl, rfl⟩
    · rintro here next hnext there ⟨u, rest', hu, hrest', rfl⟩
      obtain ⟨c, rest, hc, hrest, rfl⟩ := mem_ends_one.1 hnext
      rw [Cursor.rest_after] at hrest'
      refine ⟨c :: u, rest', List.forall_mem_cons.2 ⟨hc, hu⟩, ?_, ?_⟩
      · rw [hrest, hrest', List.cons_append]
      · rw [Cursor.after_after, List.singleton_append]
  · rintro ⟨u, rest, hu, hrest, rfl⟩
    induction u generalizing here with
    | nil =>
        rw [List.nil_append] at hrest
        exact mem_ends_many.2 (.inl (hrest ▸ here.after_nil))
    | cons c u ih =>
        obtain ⟨hc, hu⟩ := List.forall_mem_cons.1 hu
        rw [List.cons_append] at hrest
        have hmore : (here.after [c] (u ++ rest)).after u rest ∈
            (many (one ok)).ends (here.after [c] (u ++ rest)) := ih hu rfl
        rw [Cursor.after_after] at hmore
        exact mem_ends_many_of_round (mem_ends_one.2 ⟨c, _, hc, hrest, rfl⟩)
          (Cursor.length_rest_after_lt hrest) hmore

lemma rest_of_mem_ends_ahead (h : there ∈ (ahead p).ends here) : there.rest = here.rest := by
  obtain ⟨next, -, rfl⟩ := List.mem_map.1 h
  rfl

lemma mem_ends_textEnd : there ∈ textEnd.ends here ↔ here.rest = [] ∧ there = here := by
  rw [ends, ← List.isEmpty_iff]
  split_ifs with hempty
  · rw [List.mem_singleton, and_iff_right hempty]
  · exact ⟨fun h => (List.not_mem_nil h).elim, fun h => (hempty h.1).elim⟩

/-- One character each of several classes. -/
lemma mem_ends_sequence_one {oks : List (Char → Bool)} :
    there ∈ (sequence (oks.map one)).ends here ↔
      ∃ u rest, List.Forall₂ (fun ok c => ok c = true) oks u ∧ here.rest = u ++ rest ∧
        there = here.after u rest := by
  induction oks generalizing here with
  | nil =>
      refine mem_ends_sequence_nil.trans ⟨?_, ?_⟩
      · rintro rfl
        exact ⟨[], there.rest, .nil, rfl, rfl⟩
      · rintro ⟨u, rest, hu, hrest, rfl⟩
        cases hu
        rw [List.nil_append] at hrest
        exact hrest ▸ here.after_nil
  | cons ok oks ih =>
      refine mem_ends_sequence_cons.trans ⟨?_, ?_⟩
      · rintro ⟨mid, hmid, hthere⟩
        obtain ⟨c, rest, hc, hrest, rfl⟩ := mem_ends_one.1 hmid
        obtain ⟨u, rest', hu, hrest', rfl⟩ := ih.1 hthere
        rw [Cursor.rest_after] at hrest'
        refine ⟨c :: u, rest', .cons hc hu, ?_, ?_⟩
        · rw [hrest, hrest', List.cons_append]
        · rw [Cursor.after_after, List.singleton_append]
      · rintro ⟨u', rest, hu', hrest, rfl⟩
        cases hu' with
        | @cons _ c _ u hc hu =>
            rw [List.cons_append] at hrest
            refine ⟨here.after [c] (u ++ rest), mem_ends_one.2 ⟨c, _, hc, hrest, rfl⟩,
              ih.2 ⟨u, rest, hu, rfl, ?_⟩⟩
            rw [Cursor.after_after, List.singleton_append]

/-- A given text. -/
lemma mem_ends_exactly {s : Text} :
    there ∈ (exactly s).ends here ↔
      ∃ rest, here.rest = s ++ rest ∧ there = here.after s rest := by
  have hclasses : exactly s = sequence ((s.map fun c => (· == c)).map one) := by
    rw [List.map_map]
    rfl
  have hsame : ∀ u : Text, List.Forall₂ (fun ok c => ok c = true) (s.map fun c => (· == c)) u ↔
      s = u := fun u => by
    rw [List.forall₂_map_left_iff, ← List.forall₂_eq_eq_eq]
    simp only [beq_iff_eq, @eq_comm Char]
  rw [hclasses, mem_ends_sequence_one]
  constructor
  · rintro ⟨u, rest, hu, hrest, hthere⟩
    exact ⟨rest, (hsame u).1 hu ▸ hrest, (hsame u).1 hu ▸ hthere⟩
  · rintro ⟨rest, hrest, hthere⟩
    exact ⟨s, rest, (hsame s).2 rfl, hrest, hthere⟩

/-! ### Matches anywhere -/

/-- A match occurs after some part of the text. -/
lemma occursAfter_iff {before : Option Char} {s : Text} :
    p.occursAfter before s = true ↔
      ∃ u v, s = u ++ v ∧ ∃ there, there ∈ p.ends (.start (u.getLast?.or before) v) := by
  have hends : ∀ here, (!(p.ends here).isEmpty) = true ↔ ∃ there, there ∈ p.ends here :=
    fun here => by
      rw [Bool.not_eq_true', List.isEmpty_eq_false_iff_exists_mem]
  induction s generalizing before with
  | nil =>
      rw [occursAfter, hends]
      constructor
      · exact fun h => ⟨[], [], rfl, h⟩
      · rintro ⟨u, v, hsplit, h⟩
        obtain ⟨rfl, rfl⟩ := List.append_eq_nil_iff.1 hsplit.symm
        exact h
  | cons c rest ih =>
      have hlast : ∀ u : Text, (c :: u).getLast?.or before = u.getLast?.or (some c) := fun u => by
        rw [List.getLast?_cons]
        cases u.getLast? <;> rfl
      rw [occursAfter, Bool.or_eq_true, hends]
      refine (or_congr_right ih).trans ⟨?_, ?_⟩
      · rintro (h | ⟨u, v, rfl, h⟩)
        · exact ⟨[], c :: rest, rfl, h⟩
        · exact ⟨c :: u, v, rfl, by rwa [hlast]⟩
      · rintro ⟨u, v, hsplit, h⟩
        cases u with
        | nil => exact .inl (hsplit ▸ h)
        | cons c' u =>
            cases hsplit
            exact .inr ⟨u, v, rfl, hlast u ▸ h⟩

lemma occursIn_iff {s : Text} :
    p.occursIn s = true ↔ ∃ u v, s = u ++ v ∧ ∃ there, there ∈ p.ends (.start u.getLast? v) := by
  simp only [occursIn, occursAfter_iff, Option.or_none]

lemma occursIn_alt {s : Text} :
    (alt p q).occursIn s = true ↔ p.occursIn s = true ∨ q.occursIn s = true := by
  simp only [occursIn_iff, ends, List.mem_append, exists_or, and_or_left]

/-! ### The first end -/

/-- The match at a place, if there is one: the first of the ends. -/
def first? (p : Pattern) (here : Cursor) : Option Cursor :=
  (p.ends here).head?

lemma mem_ends_of_first? (h : p.first? here = some there) : there ∈ p.ends here :=
  List.mem_of_mem_head? h

lemma first?_eq_none (h : ∀ there, there ∉ p.ends here) : p.first? here = none := by
  rw [first?, List.eq_nil_iff_forall_not_mem.2 h]
  rfl

lemma first?_isSome (h : there ∈ p.ends here) : (p.first? here).isSome := by
  rw [first?, List.isSome_head?]
  simpa using List.ne_nil_of_mem h

lemma first?_eq_some (h : there ∈ p.ends here) (hunique : ∀ other ∈ p.ends here, other = there) :
    p.first? here = some there := by
  obtain ⟨first, hfirst⟩ := Option.isSome_iff_exists.1 (first?_isSome h)
  rw [hfirst, hunique first (mem_ends_of_first? hfirst)]

lemma first?_alt : (alt p q).first? here = (p.first? here).or (q.first? here) :=
  List.head?_append

lemma first?_seq : (seq p q).first? here = (p.ends here).findSome? q.first? :=
  List.head?_flatMap

/-- The second of two patterns has no say in where the first ends if it matches everywhere. -/
lemma first?_seq_of_total (hq : ∀ there, (q.first? there).isSome) :
    (seq p q).first? here = (p.first? here).bind q.first? := by
  rw [first?_seq, first?]
  cases p.ends here with
  | nil => rfl
  | cons there others =>
      obtain ⟨further, hfurther⟩ := Option.isSome_iff_exists.1 (hq there)
      simp [hfurther]

lemma first?_group {n : ℕ} :
    (group n p).first? here = (p.first? here).map fun there => there.close n here :=
  List.head?_map

lemma first?_many_isSome (p : Pattern) (here : Cursor) : ((many p).first? here).isSome :=
  first?_isSome (mem_ends_many.2 (.inl rfl))

/-- A repetition of rounds that all take something: the first way to match each of them. -/
lemma first?_many (hp : ∀ there ∈ p.ends here, there.rest.length < here.rest.length) :
    (many p).first? here = (p.first? here).elim (some here) (many p).first? := by
  rw [first?, first?, ends_many, List.head?_append, List.head?_flatMap]
  cases hends : p.ends here with
  | nil => rfl
  | cons next others =>
      have hlt := hp next (hends ▸ List.mem_cons_self)
      obtain ⟨there, hthere⟩ := Option.isSome_iff_exists.1 (first?_many_isSome p next)
      rw [List.findSome?_cons, if_pos hlt]
      simp only [first?] at hthere
      simp [first?, hthere]

/-- After a repetition that is as short as possible: what comes next is tried first. -/
lemma first?_few_seq :
    (seq (few p) q).first? here =
      (q.first? here).or ((p.ends here).findSome? fun there =>
        if there.rest.length < here.rest.length then (seq (few p) q).first? there else none) := by
  have hround : ∀ there : Cursor,
      ((if there.rest.length < here.rest.length then (few p).ends there else []).flatMap
          q.ends).head? =
        if there.rest.length < here.rest.length then (seq (few p) q).first? there else none := by
    intro there
    split_ifs <;> rfl
  rw [first?, ends, ends_few, List.flatMap_cons, List.flatMap_assoc, List.head?_append,
    List.head?_flatMap]
  simp only [hround, first?]

/-- Where what comes next does not match, one more round of the repetition is taken, and that
round in the first way that it has. -/
lemma first?_few_seq_of_round {next : Cursor} (hq : q.first? here = none)
    (hnext : p.first? here = some next) (hlt : next.rest.length < here.rest.length)
    (hthere : (seq (few p) q).first? next = some there) :
    (seq (few p) q).first? here = some there := by
  rw [first?_few_seq, hq, Option.none_or]
  rw [first?] at hnext
  obtain ⟨others, hothers⟩ := List.head?_eq_some_iff.1 hnext
  rw [hothers, List.findSome?_cons, if_pos hlt, hthere]

end CallCensus.Pattern
