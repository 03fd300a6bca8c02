import CallCensus.Proofs.Cleaning.Respacing
import Mathlib.Data.Nat.Count

/-!
Counting loses no call.

Both ways to count go on behind the bracket of a call site, so they look at none of the positions
between. None of those starts a call: the name would have to go on over white space or a bracket,
of which a name made of word characters has none. So the counts are the numbers of all positions
that start a call, each looked at by itself.

* `IsCallAt`: a position of a text that starts a call;
* `callPositions`: all of them;
* `afterSite?_eq_none_of_append`: no call site starts inside another;
* `sites_eq_callsWithin`: reading on behind the bracket skips no call;
* `count_eq_card_callPositions`: what both ways to count find is the number of positions that
  start a call.
-/

namespace CallCensus.CallSite

open Pattern

variable {operator s t part left before : Text} {c : Char} {i : ℕ} {word : Char → Bool}

/-- A call of `operator` starts at position `i` of a text: a call site is there, and no word
character before it. -/
structure IsCallAt (word : Char → Bool) (operator s : Text) (i : ℕ) : Prop where
  bounded : (s.take i).getLast?.any word = false
  site : ∃ part, IsSite operator part ∧ part <+: s.drop i

/-- Something comes after a call site where a text starts with one. -/
lemma isSome_afterSite? :
    (afterSite? operator s).isSome = true ↔ ∃ part, IsSite operator part ∧ part <+: s := by
  rw [Option.isSome_iff_exists]
  constructor
  · rintro ⟨left, hleft⟩
    obtain ⟨part, hpart, rfl⟩ := afterSite?_eq_some.1 hleft
    exact ⟨part, hpart, List.prefix_append part left⟩
  · rintro ⟨part, hpart, left, rfl⟩
    exact ⟨left, afterSite?_eq_some.2 ⟨part, hpart, rfl⟩⟩

lemma isCallAt_iff :
    IsCallAt word operator s i ↔
      (s.take i).getLast?.any word = false ∧ (afterSite? operator (s.drop i)).isSome = true := by
  rw [isSome_afterSite?]
  exact ⟨fun h => ⟨h.bounded, h.site⟩, fun h => ⟨h.1, h.2⟩⟩

instance (word : Char → Bool) (operator s : Text) : DecidablePred (IsCallAt word operator s) :=
  fun _ => decidable_of_iff' _ isCallAt_iff

lemma IsCallAt.lt_length (h : IsCallAt word operator s i) : i < s.length := by
  obtain ⟨part, hpart, hprefix⟩ := h.site
  have hle := hprefix.length_le
  have hpos := hpart.length_pos
  rw [List.length_drop] at hle
  omega

/-- The positions of a text that start a call. -/
def callPositions (word : Char → Bool) (operator s : Text) : Finset ℕ :=
  (Finset.range s.length).filter (IsCallAt word operator s)

/-- They are all positions that start one. -/
lemma mem_callPositions : i ∈ callPositions word operator s ↔ IsCallAt word operator s i := by
  rw [callPositions, Finset.mem_filter, Finset.mem_range, and_iff_right_iff_imp]
  exact IsCallAt.lt_length

/-! ### Calls do not overlap -/

/-- A name without white space and brackets. -/
structure IsCompact (operator : Text) : Prop extends IsName operator where
  unopened : ∀ c ∈ operator, isOpening c = false

/-- A name of word characters, of whichever class, is one. -/
lemma isCompact_of_word (hne : operator ≠ [])
    (hword : ∀ c ∈ operator, Unicode.isWord c = true ∨ isNameCharacter c = true) :
    IsCompact operator := by
  refine ⟨⟨hne, fun c hc => ?_⟩, fun c hc => ?_⟩
  · by_contra hblank
    rw [Bool.not_eq_false] at hblank
    have h := hword c hc
    rw [Unicode.isWord_of_isBlank hblank, isNameCharacter_of_isBlank hblank] at h
    simp at h
  · by_contra hopening
    rw [Bool.not_eq_false] at hopening
    have h := hword c hc
    rw [isWord_of_isOpening hopening, isNameCharacter_of_isOpening hopening] at h
    simp at h

/-- A call site is the name and something that has no character of it. -/
lemma IsSite.exists_gap (hoperator : IsCompact operator) (h : IsSite operator part) :
    ∃ gap, gap ≠ [] ∧ (∀ c ∈ gap, c ∉ operator) ∧ part = operator ++ gap := by
  obtain ⟨u, o, hu, ho, rfl⟩ := h
  refine ⟨u ++ [o], by simp, fun c hc hmem => ?_, by simp⟩
  rcases List.mem_append.1 hc with hc | hc
  · have hblank := hu c hc
    rw [hoperator.solid c hmem] at hblank
    cases hblank
  · rw [List.mem_singleton.1 hc] at hmem
    rw [hoperator.unopened o hmem] at ho
    cases ho

/-- A name does not go on over characters that it does not have. -/
lemma not_prefix_of_gap {y gap : Text} (hlength : y.length < operator.length) (hne : gap ≠ [])
    (hgap : ∀ c ∈ gap, c ∉ operator) : ¬operator <+: y ++ gap ++ left := by
  rintro ⟨rest, heq⟩
  obtain ⟨d, gap, rfl⟩ := List.exists_cons_of_ne_nil hne
  rw [List.append_assoc] at heq
  rcases List.append_eq_append_iff.1 heq with ⟨z, rfl, -⟩ | ⟨z, rfl, hz⟩
  · rw [List.length_append] at hlength
    omega
  · cases z with
    | nil => simp at hlength
    | cons e z =>
        obtain ⟨rfl, -⟩ := List.cons.inj hz
        exact hgap d List.mem_cons_self (by simp)

/-- **No call site starts inside another.** -/
lemma afterSite?_eq_none_of_append (hoperator : IsCompact operator) (h : IsSite operator (s ++ t))
    (hs : s ≠ []) (ht : t ≠ []) (left : Text) : afterSite? operator (t ++ left) = none := by
  obtain ⟨gap, hne, hgap, heq⟩ := h.exists_gap hoperator
  -- What is left of the call site is part of its name, or none of it, and something behind the name.
  obtain ⟨y, rest, hlength, hrest, hmem, rfl⟩ : ∃ y rest, y.length < operator.length ∧ rest ≠ [] ∧
      (∀ c ∈ rest, c ∉ operator) ∧ t = y ++ rest := by
    rcases List.append_eq_append_iff.1 heq with ⟨y, rfl, rfl⟩ | ⟨z, rfl, rfl⟩
    · refine ⟨y, gap, ?_, hne, hgap, rfl⟩
      have hpos := List.length_pos_iff.2 hs
      rw [List.length_append]
      omega
    · have hpos := List.length_pos_iff.2 hoperator.nonempty
      exact ⟨[], t, hpos, ht, fun c hc => hgap c (List.mem_append_right z hc), rfl⟩
  rw [Option.eq_none_iff_forall_not_mem]
  intro after hafter
  obtain ⟨part, ⟨u, o, -, -, rfl⟩, hpart⟩ := afterSite?_eq_some.1 hafter
  have hnot : ¬operator <+: y ++ rest ++ left := not_prefix_of_gap hlength hrest hmem
  refine hnot ⟨u ++ [o] ++ after, ?_⟩
  rw [hpart]
  simp

/-! ### Counting positions -/

/-- The number of calls that start in `part`, which stands between two other parts of a text. -/
def callsWithin (word : Char → Bool) (operator before part after : Text) : ℕ :=
  Nat.count (fun k => IsCallAt word operator (before ++ part ++ after) (before.length + k))
    part.length

lemma card_callPositions (word : Char → Bool) (operator s : Text) :
    (callPositions word operator s).card = callsWithin word operator [] s [] := by
  rw [callPositions, ← Nat.count_eq_card_filter_range, callsWithin]
  simp

/-- What starts in two parts starts in either. -/
lemma callsWithin_append (word : Char → Bool) (operator before s t after : Text) :
    callsWithin word operator before (s ++ t) after =
      callsWithin word operator before s (t ++ after) +
        callsWithin word operator (before ++ s) t after := by
  simp only [callsWithin, List.length_append, Nat.count_add, List.append_assoc, Nat.add_assoc]

lemma isCallAt_append :
    IsCallAt word operator (before ++ s) before.length ↔
      before.getLast?.any word = false ∧ (afterSite? operator s).isSome = true := by
  rw [isCallAt_iff, List.take_left, List.drop_left]

lemma callsWithin_singleton (word : Char → Bool) (operator before : Text) (c : Char)
    (after : Text) :
    callsWithin word operator before [c] after =
      if IsCallAt word operator (before ++ c :: after) before.length then 1 else 0 := by
  rw [callsWithin, List.length_singleton, Nat.count_one, List.append_assoc, List.singleton_append,
    Nat.add_zero]

/-- Behind the start of a call site and before its end no call starts. -/
lemma not_isCallAt_inside {k : ℕ} (hoperator : IsCompact operator) (hpart : IsSite operator part)
    (hpos : 0 < k) (hlt : k < part.length) (before left : Text) :
    ¬IsCallAt word operator (before ++ part ++ left) (before.length + k) := by
  intro hcall
  have hcut : part.take k ++ part.drop k = part := List.take_append_drop k part
  have htext : before ++ part ++ left = (before ++ part.take k) ++ (part.drop k ++ left) := by
    rw [List.append_assoc, List.append_assoc, ← List.append_assoc (part.take k), hcut]
  have hlength : before.length + k = (before ++ part.take k).length := by
    rw [List.length_append, List.length_take_of_le hlt.le]
  have hfirst : part.take k ≠ [] := by
    rw [← List.length_pos_iff, List.length_take_of_le hlt.le]
    exact hpos
  have hsecond : part.drop k ≠ [] := by
    rw [← List.length_pos_iff, List.length_drop]
    omega
  rw [htext, hlength, isCallAt_append,
    afterSite?_eq_none_of_append hoperator (hcut.symm ▸ hpart) hfirst hsecond] at hcall
  cases hcall.2

/-- **In a call site one call starts**, at its start. -/
lemma callsWithin_site (hoperator : IsCompact operator) (hpart : IsSite operator part)
    (hbefore : before.getLast?.any word = false) (left : Text) :
    callsWithin word operator before part left = 1 := by
  have hstart : IsCallAt word operator (before ++ part ++ left) before.length := by
    rw [List.append_assoc, isCallAt_append, isSome_afterSite?]
    exact ⟨hbefore, part, hpart, List.prefix_append part left⟩
  obtain ⟨n, hn⟩ := Nat.exists_eq_succ_of_ne_zero hpart.length_pos.ne'
  rw [callsWithin, hn, Nat.count_succ', Nat.add_zero, if_pos hstart, Nat.add_eq_right,
    Nat.count_iff_forall_not]
  intro k hk
  exact not_isCallAt_inside hoperator hpart (Nat.succ_pos k) (by omega) before left

/-- **Going on behind the bracket skips no call.** -/
lemma sites_eq_callsWithin (hopening : ∀ c, isOpening c = true → word c = false)
    (hoperator : IsCompact operator) (before s : Text) :
    sites word operator (before.getLast?.any word) s = callsWithin word operator before s [] := by
  induction hn : s.length using Nat.strongRecOn generalizing before s with
  | ind n ih =>
      cases s with
      | nil => rw [sites_nil, callsWithin, List.length_nil, Nat.count_zero]
      | cons c rest =>
          by_cases hcall : IsCallAt word operator (before ++ c :: rest) before.length
          · obtain ⟨hbefore, hsome⟩ := isCallAt_append.1 hcall
            obtain ⟨left, hsite⟩ := Option.isSome_iff_exists.1 hsome
            obtain ⟨part, hpart, heq⟩ := afterSite?_eq_some.1 hsite
            obtain ⟨o, ho, hlast⟩ := hpart.getLast?
            have hnext : (before ++ part).getLast?.any word = false := by
              rw [List.getLast?_append, hlast, Option.some_or, Option.any_some, hopening o ho]
            have hrest := ih left.length (hn ▸ length_lt_of_afterSite? hsite) (before ++ part)
              left rfl
            rw [hnext] at hrest
            rw [hbefore, sites_of_site hsite, hrest, heq, callsWithin_append, List.append_nil,
              callsWithin_site hoperator hpart hbefore, Nat.add_comm]
          · have hnone : before.getLast?.any word = false →
                afterSite? operator (c :: rest) = none := by
              intro hbefore
              by_contra hsome
              exact hcall (isCallAt_append.2 ⟨hbefore, Option.isSome_iff_ne_none.2 hsome⟩)
            have hrest := ih rest.length (hn ▸ Nat.lt_succ_self _) (before ++ [c]) rest rfl
            rw [List.getLast?_concat, Option.any_some] at hrest
            have hcut := callsWithin_append word operator before [c] rest []
            rw [List.append_nil, callsWithin_singleton, if_neg hcall, Nat.zero_add] at hcut
            rw [sites_of_none hnone, hrest, ← hcut, List.singleton_append]

/-- The call sites that are counted are the positions that start a call. -/
lemma sites_eq_card (hopening : ∀ c, isOpening c = true → word c = false)
    (hoperator : IsCompact operator) (s : Text) :
    sites word operator false s = (callPositions word operator s).card := by
  rw [card_callPositions, ← sites_eq_callsWithin hopening hoperator]
  rfl

/-- **No call is lost.** For a name of word characters the pattern has as many matches as there are
positions that start a call, a search that does not give up counts them, and the scan counts those
for its own class of word characters, as do searches that give up. -/
theorem count_eq_card_callPositions (operator s : Text) (hne : operator ≠ [])
    (hword : ∀ c ∈ operator, Unicode.isWord c = true ∨ isNameCharacter c = true) :
    (found (pattern operator) none s).countP isHit =
        (callPositions Unicode.isWord operator s).card ∧
      (∀ limit n, countByPattern? limit operator s = some n →
        n = (callPositions Unicode.isWord operator s).card ∧ count limit operator s = n) ∧
      countByScan operator s = (callPositions isNameCharacter operator s).card ∧
      ∀ limit, countByPattern? limit operator s = none →
        count limit operator s = (callPositions isNameCharacter operator s).card := by
  have hoperator := isCompact_of_word hne hword
  have hscan : countByScan operator s = (callPositions isNameCharacter operator s).card := by
    rw [countByScan_eq_sites hne, sites_eq_card (fun _ => isNameCharacter_of_isOpening) hoperator]
  refine ⟨?_, fun limit n hn => ⟨?_, ?_⟩, hscan, fun limit hnone => ?_⟩
  · rw [countP_found, Option.any_none,
      sites_eq_card (fun _ => isWord_of_isOpening) hoperator]
  · rw [countByPattern?_eq_sites hn, sites_eq_card (fun _ => isWord_of_isOpening) hoperator]
  · rw [count, hn, Option.getD_some]
  · rw [count, hnone, Option.getD_none, hscan]

/-- Calls of `ff` inside each other and over a line break, one character too late for one, and one
after a superscript digit. -/
def nestedCalls : Text :=
  ['f', 'f', '(', 'f', 'f', '\n', '\x7b', 'f', 'f', 'f', '(', '²', 'f', 'f', '(']

/-- The pattern finds three of them, and the scan two. -/
theorem count_eq_card_callPositions_nestedCalls :
    countByPattern? 20 ['f', 'f'] nestedCalls = some 3 ∧
      (callPositions Unicode.isWord ['f', 'f'] nestedCalls).card = 3 ∧
      countByScan ['f', 'f'] nestedCalls = 2 ∧
      (callPositions isNameCharacter ['f', 'f'] nestedCalls).card = 2 := by
  have hsearch : countByPattern? 20 ['f', 'f'] nestedCalls = some 3 := by decide +kernel
  have hscan : countByScan ['f', 'f'] nestedCalls = 2 := by decide +kernel
  have hword : ∀ c ∈ ['f', 'f'], Unicode.isWord c = true ∨ isNameCharacter c = true := by
    intro c hc
    obtain rfl : c = 'f' := by simpa using hc
    exact .inl rfl
  obtain ⟨-, hpattern, hagree, -⟩ :=
    count_eq_card_callPositions ['f', 'f'] nestedCalls (by simp) hword
  exact ⟨hsearch, (hpattern 20 3 hsearch).1.symm, hscan, hagree.symm.trans hscan⟩

end CallCensus.CallSite
