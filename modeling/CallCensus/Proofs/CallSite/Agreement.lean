import CallCensus.Proofs.Cleaning.Respacing

/-!
When the pattern and the scan count the same call sites.

The two ways to count have one difference, the characters that a name cannot start after. The
pattern takes the word characters for such, the scan the underscore and the letters and numbers
of every kind. So a superscript digit is disputed, and so is a combining accent. The counts
agree on a text in which no call site comes right after a disputed character, and every
disputed character makes them differ on some text.

* `IsDisputed`: a character that stops only one of the two;
* `SitesUndisputed`: no call site comes right after such a character;
* `sitesUndisputed_of_forall_lt`: ASCII texts are of this kind;
* `count_agrees`: then all ways to count agree, whatever the limit;
* `counts_differ_of_isDisputed`: a call site right after a disputed character counts for one
  of the two only;
* `counts_differ_superscript`: a text on which they differ.
-/

namespace CallCensus.CallSite

open Pattern

variable {operator s : Text} {c : Char} {word : Char → Bool} {inName inName' : Bool}

/-- A character after which only one of the two ways to count allows a call site. -/
def IsDisputed (c : Char) : Prop :=
  Unicode.isWord c ≠ isNameCharacter c

instance : DecidablePred IsDisputed := fun _ =>
  inferInstanceAs (Decidable (_ ≠ _))

/-- No call site comes right after a disputed character. -/
def SitesUndisputed (operator : Text) : Text → Prop
  | [] => True
  | c :: rest =>
    (IsDisputed c → afterSite? operator rest = none) ∧ SitesUndisputed operator rest

instance decidableSitesUndisputed (operator : Text) :
    (s : Text) → Decidable (SitesUndisputed operator s)
  | [] => instDecidableTrue
  | c :: rest =>
    have := decidableSitesUndisputed operator rest
    inferInstanceAs (Decidable ((IsDisputed c → afterSite? operator rest = none) ∧ _))

lemma not_isDisputed_of_isBlank (h : Unicode.isBlank c = true) : ¬IsDisputed c := by
  rw [IsDisputed, Unicode.isWord_of_isBlank h, isNameCharacter_of_isBlank h]
  exact not_not_intro rfl

lemma not_isDisputed_of_isOpening (h : isOpening c = true) : ¬IsDisputed c := by
  rw [IsDisputed, isWord_of_isOpening h, isNameCharacter_of_isOpening h]
  exact not_not_intro rfl

lemma not_isDisputed_of_lt (h : c.toNat < 0x80) : ¬IsDisputed c := by
  rw [IsDisputed, Unicode.isWord, isNameCharacter, Unicode.isAlphanumeric, if_pos h, if_pos h]
  exact not_not_intro rfl

/-- An ASCII text has no call site right after a disputed character. -/
theorem sitesUndisputed_of_forall_lt (operator : Text) (h : ∀ c ∈ s, c.toNat < 0x80) :
    SitesUndisputed operator s := by
  induction s with
  | nil => exact trivial
  | cons c s ih =>
      obtain ⟨hc, hs⟩ := List.forall_mem_cons.1 h
      exact ⟨fun hdisputed => absurd hdisputed (not_isDisputed_of_lt hc), ih hs⟩

/-! ### Agreement -/

/-- What holds of a text holds behind its first characters. -/
lemma SitesUndisputed.of_append {part left : Text}
    (h : SitesUndisputed operator (part ++ left)) : SitesUndisputed operator left := by
  induction part with
  | nil => exact h
  | cons c part ih => exact ih h.2

/-- **Both classes of characters lead to the same call sites**, as long as none comes right
after a disputed character. The character before the text may be disputed only where no call
site comes next. -/
lemma sites_isWord_eq (hs : SitesUndisputed operator s)
    (hbefore : afterSite? operator s = none ∨ inName = inName') :
    sites Unicode.isWord operator inName s = sites isNameCharacter operator inName' s := by
  induction hn : s.length using Nat.strongRecOn generalizing s inName inName' with
  | ind n ih =>
      cases s with
      | nil => rw [sites_nil, sites_nil]
      | cons c rest =>
          have hnext : sites Unicode.isWord operator (Unicode.isWord c) rest =
              sites isNameCharacter operator (isNameCharacter c) rest := by
            refine ih rest.length (hn ▸ Nat.lt_succ_self _) hs.2 ?_ rfl
            by_cases hc : IsDisputed c
            · exact .inl (hs.1 hc)
            · exact .inr (not_not.1 hc)
          rcases hbefore with hnone | rfl
          · rw [sites_of_none fun _ => hnone, sites_of_none fun _ => hnone, hnext]
          cases inName with
          | true => rw [sites_of_none (by simp), sites_of_none (by simp), hnext]
          | false =>
              cases hsite : afterSite? operator (c :: rest) with
              | none => rw [sites_of_none fun _ => hsite, sites_of_none fun _ => hsite, hnext]
              | some left =>
                  obtain ⟨part, hpart, heq⟩ := afterSite?_eq_some.1 hsite
                  have hlt : left.length < n := hn ▸ length_lt_of_afterSite? hsite
                  rw [heq] at hs
                  rw [sites_of_site hsite, sites_of_site hsite,
                    ih left.length hlt hs.of_append (.inr rfl) rfl]

/-- **All ways to count agree where no call site comes right after a disputed character.** The
scan counts the matches of the pattern, and so does every search that does not give up. So no
limit changes the count. -/
theorem count_agrees (hoperator : operator ≠ []) (hs : SitesUndisputed operator s) :
    (found (pattern operator) none s).countP isHit = countByScan operator s ∧
      (∀ limit n, countByPattern? limit operator s = some n → n = countByScan operator s) ∧
      ∀ limit, count limit operator s = countByScan operator s := by
  have hmatches : (found (pattern operator) none s).countP isHit = countByScan operator s := by
    rw [countP_found, countByScan_eq_sites hoperator]
    exact sites_isWord_eq hs (.inr rfl)
  refine ⟨hmatches, fun limit n hn => ?_, view_getD_segments? id hmatches⟩
  rw [eq_of_map_segments? hn, hmatches]

/-- A call of `map` after a full stop, and occurrences of the name after a letter, after a
superscript digit without a bracket behind it, and after a comma. -/
def undisputedCalls : Text :=
  ['x', '.', 'm', 'a', 'p', ' ', '(', 'é', 'm', 'a', 'p', '(', '²', 'm', 'a', 'p', ',', 'm', 'a',
    'p', '\x7b']

/-- Two of the four occurrences are call sites for either way to count. -/
theorem count_agrees_undisputedCalls :
    countByPattern? 20 ['m', 'a', 'p'] undisputedCalls = some 2 ∧
      2 = countByScan ['m', 'a', 'p'] undisputedCalls := by
  have hsearch : countByPattern? 20 ['m', 'a', 'p'] undisputedCalls = some 2 := by
    decide +kernel
  have hsites : SitesUndisputed ['m', 'a', 'p'] undisputedCalls := by decide +kernel
  obtain ⟨-, hagree, -⟩ := count_agrees (by simp) hsites
  exact ⟨hsearch, hagree 20 2 hsearch⟩

/-! ### Disagreement -/

/-- Where a character can go from the front of a text to its end, it is the same there. -/
lemma eq_of_cons_eq_concat {d : Char} (h : c :: s = s ++ [d]) : c = d := by
  induction s generalizing c with
  | nil => exact (List.cons.inj h).1
  | cons a s ih =>
      obtain ⟨rfl, hs⟩ := List.cons.inj h
      exact ih hs

/-- No call site starts at a disputed character that a call site with no white space comes
right after. -/
lemma afterSite?_cons_eq_none (hc : IsDisputed c) :
    afterSite? operator (c :: (operator ++ ['('])) = none := by
  rw [Option.eq_none_iff_forall_not_mem]
  intro left hleft
  obtain ⟨part, ⟨u, o, hu, ho, rfl⟩, heq⟩ := afterSite?_eq_some.1 hleft
  -- The name would be made of copies of the character that comes right after it.
  have hrotate : ∀ d rest, u ++ o :: left = d :: rest → c = d := by
    intro d rest hrest
    have hcut : (c :: operator) ++ ['('] = (operator ++ [d]) ++ rest := by
      rw [List.cons_append, heq, List.append_assoc, List.append_assoc, List.append_assoc,
        List.singleton_append, hrest, List.singleton_append]
    exact eq_of_cons_eq_concat (List.append_inj hcut (by simp)).1
  cases u with
  | nil => exact not_isDisputed_of_isOpening (hrotate o left rfl ▸ ho) hc
  | cons d u =>
      have hd := hu d List.mem_cons_self
      exact not_isDisputed_of_isBlank (hrotate d (u ++ o :: left) rfl ▸ hd) hc

/-- A text that is no longer than the name has no call site. -/
lemma sites_of_length_le (h : s.length ≤ operator.length) :
    sites word operator inName s = 0 := by
  induction s generalizing inName with
  | nil => exact sites_nil
  | cons c rest ih =>
      have hnone : afterSite? operator (c :: rest) = none := by
        rw [Option.eq_none_iff_forall_not_mem]
        intro left hleft
        obtain ⟨part, ⟨u, o, -, -, rfl⟩, heq⟩ := afterSite?_eq_some.1 hleft
        have hlength := congrArg List.length heq
        simp only [List.length_append, List.length_singleton] at hlength
        omega
      rw [sites_of_none fun _ => hnone]
      exact ih (Nat.le_of_succ_le h)

/-- A call site with no white space counts unless a word character comes before it. -/
lemma sites_append_opening (hoperator : operator ≠ []) :
    sites word operator inName (operator ++ ['(']) = if inName then 0 else 1 := by
  obtain ⟨a, name, rfl⟩ := List.exists_cons_of_ne_nil hoperator
  cases inName with
  | true =>
      rw [List.cons_append, sites_of_none (by simp), if_pos rfl]
      exact sites_of_length_le (by simp)
  | false =>
      have hsite : afterSite? (a :: name) (a :: (name ++ ['('])) = some [] :=
        afterSite?_eq_some.2 ⟨_, ⟨[], '(', by simp, rfl, rfl⟩, by simp⟩
      rw [List.cons_append, sites_of_site hsite, sites_nil]
      rfl

/-- **Every disputed character makes the counts differ**: a call site right after it counts for
one of the two ways only. -/
theorem counts_differ_of_isDisputed (hoperator : operator ≠ []) (hc : IsDisputed c) :
    (found (pattern operator) none (c :: (operator ++ ['(']))).countP isHit ≠
      countByScan operator (c :: (operator ++ ['('])) := by
  have hnone : afterSite? operator (c :: (operator ++ ['('])) = none :=
    afterSite?_cons_eq_none hc
  rw [countP_found, countByScan_eq_sites hoperator, Option.any_none,
    sites_of_none fun _ => hnone, sites_of_none fun _ => hnone,
    sites_append_opening hoperator, sites_append_opening hoperator]
  intro heq
  refine hc ?_
  cases hword : Unicode.isWord c <;> cases hname : isNameCharacter c <;>
    simp [hword, hname] at heq ⊢

/-- **Falling back changes a count.** After a superscript digit the pattern finds a call site,
which the scan does not count, and after a combining accent the other way round. -/
theorem counts_differ_superscript :
    countByPattern? 20 ['m', 'a', 'p'] ['²', 'm', 'a', 'p', '('] = some 1 ∧
      countByScan ['m', 'a', 'p'] ['²', 'm', 'a', 'p', '('] = 0 ∧
      countByPattern? 20 ['m', 'a', 'p'] ['e', '\u0301', 'm', 'a', 'p', '('] = some 0 ∧
      countByScan ['m', 'a', 'p'] ['e', '\u0301', 'm', 'a', 'p', '('] = 1 ∧
      count 20 ['m', 'a', 'p'] ['²', 'm', 'a', 'p', '('] ≠
        count 0 ['m', 'a', 'p'] ['²', 'm', 'a', 'p', '('] := by
  refine ⟨by decide +kernel, by decide +kernel, by decide +kernel, by decide +kernel, ?_⟩
  decide +kernel

end CallCensus.CallSite
