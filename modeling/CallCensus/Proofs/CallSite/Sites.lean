import CallCensus.CallSite
import CallCensus.Proofs.Pattern.Machine

/-!
What the two ways to count call sites count.

A call site is a name, white space and an opening bracket, and it counts only where no word
character comes before it. Both ways read a text from left to right and go on behind the
bracket of a call site, or one character further where there is none. They differ in one
thing only, which characters are word characters.

* `IsSite`: the texts of call sites;
* `sites`: the number of call sites of a text, for any class of word characters;
* `countByScan_eq_sites`: what the scan counts;
* `countByPattern?_eq_sites`: what a search that does not give up counts.
-/

namespace CallCensus.CallSite

variable {operator part left s : Text} {c : Char}

/-! ### Call sites -/

/-- A text is a call site of `operator`, up to and with its bracket. -/
def IsSite (operator part : Text) : Prop :=
  ∃ u o, (∀ c ∈ u, Unicode.isBlank c = true) ∧ isOpening o = true ∧ part = operator ++ u ++ [o]

/-- The text after the white space and the bracket at the start of a text. -/
def afterOpening? : Text → Option Text
  | [] => none
  | c :: rest =>
    if Unicode.isBlank c then afterOpening? rest else if isOpening c then some rest else none

/-- The text after the call site at the start of a text. -/
def afterSite? (operator s : Text) : Option Text :=
  (Text.after? operator s).bind afterOpening?

lemma isOpening_iff : isOpening c = true ↔ c = '(' ∨ c = '{' := by
  rw [isOpening, Bool.or_eq_true, beq_iff_eq, beq_iff_eq]

lemma isBlank_of_isOpening (h : isOpening c = true) : Unicode.isBlank c = false := by
  rcases isOpening_iff.1 h with rfl | rfl <;> rfl

/-- White space before a bracket is passed over. -/
lemma afterOpening?_eq_some :
    afterOpening? s = some left ↔
      ∃ u o, (∀ c ∈ u, Unicode.isBlank c = true) ∧ isOpening o = true ∧
        s = u ++ o :: left := by
  constructor
  · intro h
    fun_induction afterOpening? s with
    | case1 => cases h
    | case2 c rest hblank ih =>
        obtain ⟨u, o, hu, ho, rfl⟩ := ih h
        exact ⟨c :: u, o, List.forall_mem_cons.2 ⟨hblank, hu⟩, ho, rfl⟩
    | case3 c rest _ ho =>
        cases h
        exact ⟨[], c, by simp, ho, rfl⟩
    | case4 => cases h
  · rintro ⟨u, o, hu, ho, rfl⟩
    induction u with
    | nil => simp [afterOpening?, isBlank_of_isOpening ho, ho]
    | cons c u ih =>
        obtain ⟨hblank, hu⟩ := List.forall_mem_cons.1 hu
        rw [List.cons_append, afterOpening?, if_pos hblank]
        exact ih hu

/-- What comes after a text that starts with another. -/
lemma after?_eq_some {start : Text} : Text.after? start s = some left ↔ s = start ++ left := by
  induction start generalizing s with
  | nil => exact Option.some_inj
  | cons a start ih =>
      cases s with
      | nil => simp [Text.after?]
      | cons c s =>
          rw [Text.after?]
          split_ifs with hac
          · rw [ih, hac, List.cons_append, List.cons.injEq, and_iff_right rfl]
          · simp [Ne.symm hac]

/-- What comes after a call site. -/
lemma afterSite?_eq_some :
    afterSite? operator s = some left ↔ ∃ part, IsSite operator part ∧ s = part ++ left := by
  rw [afterSite?, Option.bind_eq_some_iff]
  constructor
  · rintro ⟨rest, hrest, hleft⟩
    obtain ⟨u, o, hu, ho, rfl⟩ := afterOpening?_eq_some.1 hleft
    obtain rfl := after?_eq_some.1 hrest
    exact ⟨_, ⟨u, o, hu, ho, rfl⟩, by simp⟩
  · rintro ⟨part, ⟨u, o, hu, ho, rfl⟩, rfl⟩
    refine ⟨u ++ o :: left, after?_eq_some.2 (by simp), ?_⟩
    exact afterOpening?_eq_some.2 ⟨u, o, hu, ho, rfl⟩

lemma IsSite.getLast? (h : IsSite operator part) :
    ∃ o, isOpening o = true ∧ part.getLast? = some o := by
  obtain ⟨u, o, -, ho, rfl⟩ := h
  exact ⟨o, ho, List.getLast?_concat⟩

lemma IsSite.length_pos (h : IsSite operator part) : 0 < part.length := by
  obtain ⟨u, o, -, -, rfl⟩ := h
  rw [List.length_append]
  exact Nat.succ_pos _

lemma length_lt_of_afterSite? (h : afterSite? operator s = some left) :
    left.length < s.length := by
  obtain ⟨part, hpart, rfl⟩ := afterSite?_eq_some.1 h
  have := hpart.length_pos
  rw [List.length_append]
  omega

/-! ### Counting -/

/-- The number of call sites of `operator` in a text, where `inName` says whether a word
character comes before it. -/
def sites (word : Char → Bool) (operator : Text) (inName : Bool) : Text → ℕ
  | [] => 0
  | c :: rest =>
    match h : if inName then none else afterSite? operator (c :: rest) with
    | none => sites word operator (word c) rest
    | some left => sites word operator false left + 1
termination_by s => s.length
decreasing_by
  · exact Nat.lt_succ_self _
  · split_ifs at h
    exact length_lt_of_afterSite? h

variable {word : Char → Bool} {inName : Bool} {rest : Text}

lemma sites_nil : sites word operator inName [] = 0 := by
  rw [sites]

/-- Behind a call site the count goes on as at the start of a text. -/
lemma sites_of_site (h : afterSite? operator (c :: rest) = some left) :
    sites word operator false (c :: rest) = sites word operator false left + 1 := by
  rw [sites]
  split <;> simp_all

/-- Where there is no call site the count goes on behind the next character. -/
lemma sites_of_none (h : inName = false → afterSite? operator (c :: rest) = none) :
    sites word operator inName (c :: rest) = sites word operator (word c) rest := by
  rw [sites]
  cases inName <;> split <;> simp_all

/-- Where a text starts with a call site, what is left after it is all but its length. -/
lemma drop_eq_of_append_eq (hpart : IsSite operator part) (h : c :: rest = part ++ left) :
    rest.drop (part.length - 1) = left := by
  have hlength := hpart.length_pos
  have hdrop : (c :: rest).drop part.length = left := by rw [h, List.drop_left]
  obtain ⟨k, hk⟩ := Nat.exists_eq_succ_of_ne_zero (Nat.ne_of_gt hlength)
  rw [hk] at hdrop ⊢
  exact hdrop

/-! ### The scan -/

/-- The scan counts the characters through the bracket. -/
lemma openingEnd?_eq (s : Text) (n : ℕ) :
    openingEnd? s n = (afterOpening? s).map fun left => n + s.length - left.length := by
  fun_induction openingEnd? s n with
  | case1 => rfl
  | case2 c rest n hblank ih =>
      rw [ih, afterOpening?, if_pos hblank]
      refine Option.map_congr fun left _ => ?_
      rw [List.length_cons]
      omega
  | case3 c rest n hblank ho =>
      rw [afterOpening?, if_neg hblank, if_pos ho, Option.map_some, List.length_cons]
      congr 1
      omega
  | case4 c rest n hblank ho => rw [afterOpening?, if_neg hblank, if_neg ho, Option.map_none]

/-- Where the scan finds a call site, there is one of that length. -/
lemma siteLength?_eq (operator : Text) (before : Option Char) (s : Text) :
    siteLength? operator before s =
      if before.any isNameCharacter then none
      else (afterSite? operator s).map fun left => s.length - left.length := by
  rw [siteLength?, afterSite?]
  cases hrest : Text.after? operator s with
  | none => simp
  | some rest =>
      have hs := after?_eq_some.1 hrest
      simp only [Option.bind_some, openingEnd?_eq]
      rw [hs, List.length_append]

lemma isNameCharacter_of_isOpening (h : isOpening c = true) : isNameCharacter c = false := by
  rcases isOpening_iff.1 h with rfl | rfl <;> rfl

/-- The scan counts call sites on top of a total. -/
lemma countFrom_eq (operator : Text) (before : Option Char) (total : ℕ) (s : Text) :
    countFrom operator before total s =
      total + sites isNameCharacter operator (before.any isNameCharacter) s := by
  induction hn : s.length using Nat.strongRecOn generalizing s before total with
  | ind n ih =>
      cases s with
      | nil => rw [countFrom, sites_nil, Nat.add_zero]
      | cons c rest =>
          have hlt : ∀ k, (rest.drop k).length < n := hn ▸ Text.length_drop_lt c rest
          rw [countFrom, siteLength?_eq]
          by_cases hname : before.any isNameCharacter = true
          · rw [if_pos hname, hname, sites_of_none (by simp)]
            exact ih _ (hlt 0) (some c) total rest rfl
          · rw [if_neg hname, Bool.eq_false_iff.2 hname]
            cases hsite : afterSite? operator (c :: rest) with
            | none =>
                rw [sites_of_none fun _ => hsite]
                exact ih _ (hlt 0) (some c) total rest rfl
            | some left =>
                obtain ⟨part, hpart, heq⟩ := afterSite?_eq_some.1 hsite
                obtain ⟨o, ho, hlast⟩ := hpart.getLast?
                have hlength : (c :: rest).length - left.length = part.length := by
                  rw [heq, List.length_append, Nat.add_sub_cancel]
                have hbefore : (c :: rest)[part.length - 1]? = some o := by
                  rw [heq, List.getElem?_append_left (by have := hpart.length_pos; omega),
                    ← List.getLast?_eq_getElem?, hlast]
                rw [sites_of_site hsite]
                simp only [Option.map_some, hlength, hbefore]
                rw [ih _ (hlt _) (some o) (total + 1) _ rfl, drop_eq_of_append_eq hpart heq,
                  Option.any_some, isNameCharacter_of_isOpening ho]
                omega

/-- **The scan counts the call sites of a text.** -/
theorem countByScan_eq_sites (hoperator : operator ≠ []) (s : Text) :
    countByScan operator s = sites isNameCharacter operator false s := by
  have hne : ¬operator.isEmpty = true := by rwa [List.isEmpty_iff]
  rw [countByScan, if_neg hne, countFrom_eq, Nat.zero_add]
  rfl

/-! ### The pattern -/

open Pattern

/-- The pattern matches call sites that no word character comes before. -/
lemma mem_ends_pattern {here there : Cursor} :
    there ∈ (pattern operator).ends here ↔
      here.before.any Unicode.isWord = false ∧
        ∃ part left, IsSite operator part ∧ here.rest = part ++ left ∧
          there = here.after part left := by
  rw [pattern, mem_ends_sequence_cons]
  constructor
  · rintro ⟨mid, hmid, hthere⟩
    rw [ends] at hmid
    split_ifs at hmid with hbefore
    · cases hmid
    obtain rfl := List.mem_singleton.1 hmid
    refine ⟨Bool.eq_false_iff.2 hbefore, ?_⟩
    obtain ⟨afterName, hname, hthere⟩ := mem_ends_sequence_cons.1 hthere
    obtain ⟨rest, hrest, rfl⟩ := mem_ends_exactly.1 hname
    obtain ⟨afterBlanks, hblanks, hthere⟩ := mem_ends_sequence_cons.1 hthere
    obtain ⟨u, rest', hu, hrest', rfl⟩ := mem_ends_many_one.1 hblanks
    obtain ⟨o, left, ho, hleft, rfl⟩ := mem_ends_one.1 hthere
    rw [Cursor.rest_after] at hrest' hleft
    refine ⟨operator ++ u ++ [o], left, ⟨u, o, hu, ho, rfl⟩, ?_, ?_⟩
    · rw [hrest, hrest', hleft]
      simp
    · rw [Cursor.after_after, Cursor.after_after, List.append_assoc]
  · rintro ⟨hbefore, part, left, ⟨u, o, hu, ho, rfl⟩, hrest, rfl⟩
    refine ⟨here, by simp [ends, hbefore], ?_⟩
    refine mem_ends_sequence_cons.2 ⟨here.after operator (u ++ o :: left), ?_, ?_⟩
    · exact mem_ends_exactly.2 ⟨_, by simp [hrest], rfl⟩
    refine mem_ends_sequence_cons.2 ⟨here.after (operator ++ u) (o :: left), ?_, ?_⟩
    · exact mem_ends_many_one.2 ⟨u, _, hu, rfl, by rw [Cursor.after_after]⟩
    · exact mem_ends_one.2 ⟨o, left, ho, rfl, by rw [Cursor.after_after]⟩

lemma isWord_of_isOpening (h : isOpening c = true) : Unicode.isWord c = false := by
  rcases isOpening_iff.1 h with rfl | rfl <;> rfl

/-- The matches of the pattern are the call sites of a text. -/
lemma countP_found (operator : Text) (before : Option Char) (s : Text) :
    (found (pattern operator) before s).countP isHit =
      sites Unicode.isWord operator (before.any Unicode.isWord) s := by
  induction hn : s.length using Nat.strongRecOn generalizing s before with
  | ind n ih =>
      cases s with
      | nil => rw [found, sites_nil, List.countP_nil]
      | cons c rest =>
          have hlt : ∀ k, (rest.drop k).length < n := hn ▸ Text.length_drop_lt c rest
          cases hfirst : (pattern operator).first? (.start before (c :: rest)) with
          | none =>
              have hnone : before.any Unicode.isWord = false →
                  afterSite? operator (c :: rest) = none := by
                intro hbefore
                rw [Option.eq_none_iff_forall_not_mem]
                intro left hleft
                obtain ⟨part, hpart, heq⟩ := afterSite?_eq_some.1 hleft
                have hend : (Cursor.start before (c :: rest)).after part left ∈
                    (pattern operator).ends (.start before (c :: rest)) :=
                  mem_ends_pattern.2 ⟨hbefore, part, left, hpart, heq, rfl⟩
                have hsome := first?_isSome hend
                rw [hfirst] at hsome
                cases hsome
              rw [sites_of_none hnone, found_of_none hfirst]
              exact ih _ (hlt 0) (some c) rest rfl
          | some final =>
              obtain ⟨hbefore, part, left, hpart, heq, rfl⟩ :=
                mem_ends_pattern.1 (mem_ends_of_first? hfirst)
              change before.any Unicode.isWord = false at hbefore
              obtain ⟨o, ho, hlast⟩ := hpart.getLast?
              have hsite := afterSite?_eq_some.2 ⟨part, hpart, heq⟩
              have hleft := length_lt_of_afterSite? hsite
              have hbracket : ((Cursor.start before (c :: rest)).after part left).before =
                  some o := by
                simp only [Cursor.after, hlast, Option.some_or]
              have hrec := ih left.length (hn ▸ hleft) (some o) left rfl
              rw [Option.any_some, isWord_of_isOpening ho] at hrec
              rw [hbefore, sites_of_site hsite, found_of_first? hfirst hleft, hbracket,
                List.countP_cons_of_pos rfl, Cursor.rest_after, hrec]

/-- **A search for call sites that does not give up counts those of the text.** -/
theorem countByPattern?_eq_sites {limit n : ℕ} (h : countByPattern? limit operator s = some n) :
    n = sites Unicode.isWord operator false s :=
  (eq_of_map_segments? h).trans (countP_found operator none s)

end CallCensus.CallSite
