import CallCensus.Proofs.CallSite.Sites

/-!
White space and the count of call sites.

How long a run of white space is, and of which characters, has no bearing on a count: a call
site allows any white space between name and bracket, and white space is no word character.
The name itself must not hold any.

* `Respaced`: two texts that differ in their runs of white space only;
* `afterSite?_of_respaced`: both start with a call site or neither does;
* `sites_eq_of_respaced`: both have the same number of call sites;
* `countByScan_eq_of_respaced`, `countByPattern?_eq_of_respaced`: so do the two counters say.
-/

namespace CallCensus

/-- A run of white space that is not empty. -/
def IsBlankRun (u : Text) : Prop :=
  u ≠ [] ∧ ∀ c ∈ u, Unicode.isBlank c = true

lemma isBlankRun_space : IsBlankRun [' '] :=
  ⟨List.cons_ne_nil ' ' [], fun _ hc => List.mem_singleton.1 hc ▸ rfl⟩

/-- Two texts that differ in their runs of white space only. -/
inductive Respaced : Text → Text → Prop
  | nil : Respaced [] []
  | char (c : Char) {s t : Text} (h : Respaced s t) : Respaced (c :: s) (c :: t)
  | blanks {u v s t : Text} (hu : IsBlankRun u) (hv : IsBlankRun v) (h : Respaced s t) :
      Respaced (u ++ s) (v ++ t)

lemma Respaced.refl (s : Text) : Respaced s s := by
  induction s with
  | nil => exact .nil
  | cons c s ih => exact .char c ih

/-- A name: not empty, and without white space. -/
structure IsName (operator : Text) : Prop where
  nonempty : operator ≠ []
  solid : ∀ c ∈ operator, Unicode.isBlank c = false

namespace Unicode

/-- The code points of white space. -/
def blankPoints : List ℕ :=
  [0x09, 0x0a, 0x0b, 0x0c, 0x0d, 0x20, 0x85, 0xa0, 0x1680, 0x2000, 0x2001, 0x2002, 0x2003, 0x2004,
    0x2005, 0x2006, 0x2007, 0x2008, 0x2009, 0x200a, 0x2028, 0x2029, 0x202f, 0x205f, 0x3000]

lemma toNat_mem_blankPoints {c : Char} (h : isBlank c = true) : c.toNat ∈ blankPoints := by
  simp only [isBlank, Bool.or_eq_true, Bool.and_eq_true, decide_eq_true_eq, beq_iff_eq] at h
  simp only [blankPoints, List.mem_cons, List.not_mem_nil, or_false]
  omega

lemma isWord_of_isBlank {c : Char} (h : isBlank c = true) : isWord c = false := by
  have hall : ∀ n ∈ blankPoints, isWord (Char.ofNat n) = false := by decide +kernel
  have hc := hall _ (toNat_mem_blankPoints h)
  rwa [Char.ofNat_toNat] at hc

end Unicode

namespace CallSite

lemma isNameCharacter_of_isBlank {c : Char} (h : Unicode.isBlank c = true) :
    isNameCharacter c = false := by
  have hall : ∀ n ∈ Unicode.blankPoints, isNameCharacter (Char.ofNat n) = false := by
    decide +kernel
  have hc := hall _ (Unicode.toNat_mem_blankPoints h)
  rwa [Char.ofNat_toNat] at hc

variable {operator s t u : Text} {word : Char → Bool}

/-- A name that holds no white space comes next in both texts or in neither. -/
lemma rel_after? (hoperator : ∀ c ∈ operator, Unicode.isBlank c = false) (h : Respaced s t) :
    Option.Rel Respaced (Text.after? operator s) (Text.after? operator t) := by
  induction operator generalizing s t with
  | nil => exact .some h
  | cons a operator ih =>
      obtain ⟨ha, hoperator⟩ := List.forall_mem_cons.1 hoperator
      -- A run of white space is no place where the name goes on.
      have hblank : ∀ {u : Text} (s : Text), IsBlankRun u →
          Text.after? (a :: operator) (u ++ s) = none := by
        intro u s hu
        obtain ⟨b, v, rfl⟩ := List.exists_cons_of_ne_nil hu.1
        have hb := hu.2 b List.mem_cons_self
        have hne : a ≠ b := by
          rintro rfl
          rw [ha] at hb
          cases hb
        rw [List.cons_append, Text.after?, if_neg hne]
      cases h with
      | nil => exact .none
      | char c h =>
          rw [Text.after?, Text.after?]
          split_ifs
          · exact ih hoperator h
          · exact .none
      | blanks hu hv h =>
          rw [hblank _ hu, hblank _ hv]
          exact .none

lemma afterOpening?_append (hu : ∀ c ∈ u, Unicode.isBlank c = true) (s : Text) :
    afterOpening? (u ++ s) = afterOpening? s := by
  induction u with
  | nil => rfl
  | cons c u ih =>
      obtain ⟨hc, hu⟩ := List.forall_mem_cons.1 hu
      rw [List.cons_append, afterOpening?, if_pos hc, ih hu]

/-- A bracket after white space comes next in both texts or in neither. -/
lemma rel_afterOpening? (h : Respaced s t) :
    Option.Rel Respaced (afterOpening? s) (afterOpening? t) := by
  induction h with
  | nil => exact .none
  | char c h ih =>
      rw [afterOpening?, afterOpening?]
      split_ifs
      · exact ih
      · exact .some h
      · exact .none
  | blanks hu hv h ih =>
      rw [afterOpening?_append hu.2, afterOpening?_append hv.2]
      exact ih

/-- A call site comes next in both texts or in neither. -/
lemma afterSite?_of_respaced (hoperator : ∀ c ∈ operator, Unicode.isBlank c = false)
    (h : Respaced s t) :
    (afterSite? operator s = none ∧ afterSite? operator t = none) ∨
      ∃ left left', afterSite? operator s = some left ∧ afterSite? operator t = some left' ∧
        Respaced left left' := by
  have hname := rel_after? hoperator h
  rw [afterSite?, afterSite?]
  generalize Text.after? operator s = rest at hname
  generalize Text.after? operator t = rest' at hname
  cases hname with
  | none => exact .inl ⟨rfl, rfl⟩
  | @some rest rest' h =>
      have hopening := rel_afterOpening? h
      rw [Option.bind_some, Option.bind_some]
      generalize afterOpening? rest = left at hopening
      generalize afterOpening? rest' = left' at hopening
      cases hopening with
      | none => exact .inl ⟨rfl, rfl⟩
      | some h => exact .inr ⟨_, _, rfl, rfl, h⟩

/-- White space starts no call site and ends every name. -/
lemma sites_append (hword : ∀ c, Unicode.isBlank c = true → word c = false)
    (hoperator : IsName operator) (hu : IsBlankRun u) (inName : Bool) (s : Text) :
    sites word operator inName (u ++ s) = sites word operator false s := by
  obtain ⟨hne, hblank⟩ := hu
  induction u generalizing inName with
  | nil => exact (hne rfl).elim
  | cons c u ih =>
      obtain ⟨hc, hu⟩ := List.forall_mem_cons.1 hblank
      have hnone : afterSite? operator (c :: (u ++ s)) = none := by
        obtain ⟨a, operator, rfl⟩ := List.exists_cons_of_ne_nil hoperator.nonempty
        have ha := hoperator.solid a List.mem_cons_self
        have hac : a ≠ c := by
          rintro rfl
          rw [ha] at hc
          cases hc
        rw [afterSite?, Text.after?, if_neg hac, Option.bind_none]
      rw [List.cons_append, sites_of_none fun _ => hnone, hword c hc]
      cases u with
      | nil => rfl
      | cons d u => exact ih false (List.cons_ne_nil d u) hu

/-- **The number of call sites does not depend on how white space is set.** -/
lemma sites_eq_of_respaced (hword : ∀ c, Unicode.isBlank c = true → word c = false)
    (hoperator : IsName operator) (h : Respaced s t) (inName : Bool) :
    sites word operator inName s = sites word operator inName t := by
  induction hn : s.length using Nat.strongRecOn generalizing s t inName with
  | ind n ih =>
      cases h with
      | nil => rfl
      | @char c s t h =>
          have hnext := ih s.length (hn ▸ Nat.lt_succ_self _) h (word c) rfl
          rcases afterSite?_of_respaced hoperator.solid (.char c h) with
            ⟨hnone, hnone'⟩ | ⟨left, left', hsite, hsite', hrespaced⟩
          · rw [sites_of_none fun _ => hnone, sites_of_none fun _ => hnone']
            exact hnext
          cases inName with
          | true =>
              rw [sites_of_none (by simp), sites_of_none (by simp)]
              exact hnext
          | false =>
              have hlt := length_lt_of_afterSite? hsite
              rw [sites_of_site hsite, sites_of_site hsite',
                ih left.length (hn ▸ hlt) hrespaced false rfl]
      | @blanks u v s t hu hv h =>
          have hlt : s.length < n := by
            have hpos := List.length_pos_iff.2 hu.1
            rw [← hn, List.length_append]
            omega
          rw [sites_append hword hoperator hu, sites_append hword hoperator hv]
          exact ih s.length hlt h false rfl

/-- **The scan counts alike in texts that differ in their white space only.** -/
theorem countByScan_eq_of_respaced (hoperator : IsName operator) (h : Respaced s t) :
    countByScan operator s = countByScan operator t := by
  rw [countByScan_eq_sites hoperator.nonempty, countByScan_eq_sites hoperator.nonempty]
  exact sites_eq_of_respaced (fun _ => isNameCharacter_of_isBlank) hoperator h false

/-- **So does the pattern, whatever its limits, unless a search gives up.** -/
theorem countByPattern?_eq_of_respaced {limit limit' n m : ℕ} (hoperator : IsName operator)
    (h : Respaced s t) (hn : countByPattern? limit operator s = some n)
    (hm : countByPattern? limit' operator t = some m) : n = m := by
  rw [countByPattern?_eq_sites hn, countByPattern?_eq_sites hm]
  exact sites_eq_of_respaced (fun _ => Unicode.isWord_of_isBlank) hoperator h false

end CallSite

end CallCensus
