import CallCensus.CallSite.Bytes
import CallCensus.Proofs.CallSite.Sites
import CallCensus.Proofs.Text.Offsets

/-!
Call sites counted by offsets and by characters.

The count by offsets looks for the next occurrence of the name, so it leaves out at once the
characters that the count by characters passes over one by one. From an occurrence on, both do the
same: behind a call site they go on after its bracket, and else after the first character of the
name.

* `sites_of_first`, `sites_of_absent`: no call site is left out on the way to an occurrence;
* `round_found`: what a round does at an occurrence;
* `countByBytes?_eq`: both counts agree;
* `advances_round`: the cursor moves on.
-/

namespace CallCensus.CallSite

open Text Utf8

variable {operator name before s u v w rest left : Text} {a c : Char} {word : Char → Bool}
  {inName : Bool} {i total : ℕ}

/-! ### Up to the next occurrence -/

lemma afterSite?_eq_none (h : ¬operator <+: s) : afterSite? operator s = none := by
  rw [Option.eq_none_iff_forall_not_mem]
  intro left hleft
  obtain ⟨part, ⟨u, o, -, -, rfl⟩, rfl⟩ := afterSite?_eq_some.1 hleft
  exact h ⟨u ++ [o] ++ left, by simp⟩

lemma sites_of_absent (h : ¬operator <:+: s) : sites word operator inName s = 0 := by
  induction s generalizing inName with
  | nil => exact sites_nil
  | cons c rest ih =>
      rw [sites_of_none fun _ => afterSite?_eq_none fun hprefix => h hprefix.isInfix]
      exact ih fun hinfix => h (List.infix_cons hinfix)

/-- Before the first occurrence of the name there is no call site. -/
lemma sites_of_first (h : First operator u v) (before : Text) :
    sites word operator (before.getLast?.any word) v =
      sites word operator ((before ++ u).getLast?.any word) (v.drop u.length) := by
  induction h generalizing before with
  | here v => rw [List.append_nil]; rfl
  | @later c u v hnot _ ih =>
      have hlast : (before ++ [c]).getLast?.any word = word c := by
        rw [List.getLast?_concat, Option.any_some]
      rw [sites_of_none fun _ => afterSite?_eq_none hnot, ← hlast, ih, ← List.append_cons]
      rfl

/-! ### At an occurrence -/

/-- White space is passed over up to the bracket. -/
lemma afterOpening?_eq (s : Text) :
    afterOpening? s = match s.dropWhile Unicode.isBlank with
      | [] => none
      | c :: rest => if isOpening c then some rest else none := by
  induction s with
  | nil => rfl
  | cons c rest ih =>
      rw [afterOpening?]
      by_cases hblank : Unicode.isBlank c = true
      · rw [if_pos hblank, ih, List.dropWhile_cons_of_pos hblank]
      · rw [if_neg hblank, List.dropWhile_cons_of_neg hblank]

/-- A string without the first characters of a kind. -/
lemma copy_dropWhile (p : Char → Bool) (s : Text) :
    ((String.ofList s).dropWhile p).copy = String.ofList (s.dropWhile p) := by
  generalize htaken : ((String.ofList s).takeWhile p).copy.toList = taken
  generalize hleft : ((String.ofList s).dropWhile p).copy.toList = left
  have happend : taken ++ left = s := by
    have hsplit : ((String.ofList s).takeWhile p).copy ++ ((String.ofList s).dropWhile p).copy =
        String.ofList s := String.takeWhile_append_dropWhile
    have hlist := congrArg String.toList hsplit
    rwa [String.toList_append, String.toList_ofList, htaken, hleft] at hlist
  have hall : taken.all p = true := by
    rw [← htaken, ← String.Slice.all_bool_eq]
    exact String.all_takeWhile
  have hhead : left.head?.any p = false := by
    rw [← hleft, ← String.Slice.startsWith_bool_eq_head?]
    exact String.startsWith_dropWhile
  have hdrop : left.dropWhile p = left := by
    cases left with
    | nil => rfl
    | cons c rest => exact List.dropWhile_cons_of_neg (Bool.eq_false_iff.1 hhead)
  rw [← String.toList_inj, String.toList_ofList, hleft, ← happend,
    List.dropWhile_append_of_pos (List.all_eq_true.1 hall), hdrop]

/-- What comes of an occurrence of the name. -/
lemma next?_eq (hs : s = before ++ (a :: name ++ w)) :
    Count.next? (String.ofList s) total (utf8Length before)
        (utf8Length before + utf8Length (a :: name)) =
      some (if !before.getLast?.any isNameCharacter &&
          (w.dropWhile Unicode.isBlank).head?.any isOpening then
        ⟨total + 1, utf8Length s - utf8Length (w.dropWhile Unicode.isBlank) + 1⟩
      else ⟨total, utf8Length before + a.utf8Size⟩) := by
  have hname : StartsAt s (utf8Length before) (a :: name ++ w) := ⟨before, hs, rfl⟩
  have hall : StartsAt s 0 (before ++ (a :: name ++ w)) := hs ▸ startsAt_zero s
  have hbefore : slice? (String.ofList s) 0 (utf8Length before) = some (String.ofList before) := by
    rw [← slice?_eq_some hall, Nat.zero_add]
  rw [Count.next?, slice?_last hname.append, hbefore, slice?_last hname]
  simp only [Option.bind_eq_bind, Option.bind_some, copy_dropWhile, utf8ByteSize_ofList,
    String.startsWith_bool_eq_head?, String.back?_eq, String.front?_eq, String.toList_ofList]
  split_ifs <;> rfl

/-- What a round does at an occurrence of the name. -/
lemma round_found (hs : s = before ++ v) (hv : v = u ++ (a :: name ++ w))
    {pos : (String.ofList v).Pos}
    (hfind : (String.ofList v).find? (String.ofList (a :: name)) = some pos)
    (hpos : pos.offset.byteIdx = utf8Length u) :
    Count.round (String.ofList (a :: name)) (String.ofList s) ⟨total, utf8Length before⟩ =
      .goOn (if !(before ++ u).getLast?.any isNameCharacter &&
          (w.dropWhile Unicode.isBlank).head?.any isOpening then
        ⟨total + 1, utf8Length s - utf8Length (w.dropWhile Unicode.isBlank) + 1⟩
      else ⟨total, utf8Length (before ++ u) + a.utf8Size⟩) := by
  have hstart : StartsAt s (utf8Length before) v := ⟨before, hs, rfl⟩
  have hname : s = (before ++ u) ++ (a :: name ++ w) := by rw [hs, hv, List.append_assoc]
  rw [Count.round, slice?_last hstart]
  simp only [hfind, hpos, utf8ByteSize_ofList (a :: name)]
  rw [← utf8Length_append, next?_eq hname]

/-! ### The count -/

/-- The cursor of the count moves on. -/
lemma advances_round (hoperator : operator ≠ []) (s : Text) :
    Advances (Count.round (String.ofList operator) (String.ofList s)) Count.cursor
      (String.ofList s).utf8ByteSize := by
  obtain ⟨a, name, rfl⟩ := List.exists_cons_of_ne_nil hoperator
  rintro ⟨total, i⟩ next hround
  cases hrest : slice? (String.ofList s) i (String.ofList s).utf8ByteSize with
  | none =>
      rw [Count.round, hrest] at hround
      cases hround
  | some rest =>
      obtain ⟨before, part, after, hs, rfl, -, -⟩ := slice?_eq_some_iff.1 hrest
      generalize part ++ after = v at hs
      cases hfind : (String.ofList v).find? (String.ofList (a :: name)) with
      | none =>
          rw [Count.round, slice?_last ⟨before, hs, rfl⟩] at hround
          simp only [hfind] at hround
          cases hround
      | some pos =>
          obtain ⟨u, hfirst, hpos⟩ := exists_first (List.cons_ne_nil a name) hfind
          obtain ⟨w, hw⟩ := hfirst.exists_append
          rw [List.append_assoc] at hw
          rw [round_found hs hw hfind hpos] at hround
          have hpositive := a.utf8Size_pos
          have hdrop : utf8Length (w.dropWhile Unicode.isBlank) ≤ utf8Length w :=
            utf8Length_le_of_sublist (List.dropWhile_sublist _)
          have hsize : utf8Length s = utf8Length before +
              (utf8Length u + (a.utf8Size + (utf8Length name + utf8Length w))) := by
            rw [hs, hw]
            simp only [utf8Length_append, List.cons_append, utf8Length_cons]
          have hlt : utf8Length before < utf8Length s := by omega
          refine ⟨by rwa [utf8ByteSize_ofList], ?_⟩
          split_ifs at hround <;> cases hround
          · show utf8Length before < utf8Length s - utf8Length (w.dropWhile Unicode.isBlank) + 1
            omega
          · show utf8Length before < utf8Length (before ++ u) + a.utf8Size
            rw [utf8Length_append]
            omega

/-- With a bracket behind the white space after the name, there is a call site. -/
lemma exists_site (operator : Text)
    (h : (w.dropWhile Unicode.isBlank).head?.any isOpening = true) :
    ∃ u o left, w = u ++ o :: left ∧ w.dropWhile Unicode.isBlank = o :: left ∧
      isOpening o = true ∧ afterSite? operator (operator ++ w) = some left := by
  cases hdrop : w.dropWhile Unicode.isBlank with
  | nil =>
      rw [hdrop] at h
      cases h
  | cons o left =>
      rw [hdrop] at h
      refine ⟨w.takeWhile Unicode.isBlank, o, left, ?_, rfl, h, ?_⟩
      · rw [← hdrop, List.takeWhile_append_dropWhile]
      · rw [afterSite?, after?_eq_some.2 rfl, Option.bind_some, afterOpening?_eq, hdrop]
        exact if_pos h

lemma afterSite?_append_eq_none (h : (w.dropWhile Unicode.isBlank).head?.any isOpening = false) :
    afterSite? operator (operator ++ w) = none := by
  rw [afterSite?, after?_eq_some.2 rfl, Option.bind_some, afterOpening?_eq]
  cases hdrop : w.dropWhile Unicode.isBlank with
  | nil => rfl
  | cons o left =>
      rw [hdrop] at h
      exact if_neg (Bool.eq_false_iff.1 h)

lemma cursor_eq {part : Text} {o : Char} (hs : s = part ++ o :: left) (ho : isOpening o = true) :
    utf8Length s - utf8Length (o :: left) + 1 = utf8Length (part ++ [o]) := by
  have hsize : o.utf8Size = 1 := by rcases isOpening_iff.1 ho with rfl | rfl <;> rfl
  rw [hs, utf8Length_append, utf8Length_append, utf8Length_singleton, hsize,
    Nat.add_sub_cancel]

/-- The count by offsets, from any offset where a character starts. -/
lemma loop_round (hs : s = before ++ v) :
    loop (Count.round (String.ofList (a :: name)) (String.ofList s)) ⟨total, utf8Length before⟩ =
      some (total + sites isNameCharacter (a :: name) (before.getLast?.any isNameCharacter) v) := by
  have hadvances := advances_round (List.cons_ne_nil a name) s
  induction hn : v.length using Nat.strongRecOn generalizing before v total with
  | ind n ih =>
      cases hfind : (String.ofList v).find? (String.ofList (a :: name)) with
      | none =>
          have hround : Count.round (String.ofList (a :: name)) (String.ofList s)
              ⟨total, utf8Length before⟩ = .stop total := by
            rw [Count.round, slice?_last ⟨before, hs, rfl⟩]
            simp only [hfind]
          rw [hadvances.loop_stop hround, sites_of_absent (find?_eq_none.1 hfind), Nat.add_zero]
      | some pos =>
          obtain ⟨u, hfirst, hpos⟩ := exists_first (List.cons_ne_nil a name) hfind
          obtain ⟨w, hw⟩ := hfirst.exists_append
          rw [List.append_assoc] at hw
          rw [hadvances.loop_goOn (round_found hs hw hfind hpos), sites_of_first hfirst, hw,
            List.drop_left]
          split_ifs with hsite
          · obtain ⟨hname, hopening⟩ := Bool.and_eq_true_iff.1 hsite
            rw [Bool.not_eq_true'] at hname
            obtain ⟨blanks, o, left, rfl, hdrop, ho, hleft⟩ := exists_site (a :: name) hopening
            have hs' : s = (before ++ u ++ (a :: name) ++ blanks) ++ o :: left := by
              rw [hs, hw]
              simp
            have hlength : left.length < n := by
              rw [← hn, hw]
              simp only [List.length_append, List.length_cons]
              omega
            rw [List.cons_append] at hleft
            rw [hdrop, cursor_eq hs' ho, hname, List.cons_append, sites_of_site hleft,
              ih _ hlength (hs'.trans (List.append_cons ..)) rfl, List.getLast?_concat,
              Option.any_some, isNameCharacter_of_isOpening ho]
            congr 1
            omega
          · have hs' : s = (before ++ u ++ [a]) ++ (name ++ w) := by
              rw [hs, hw]
              simp
            have hlength : (name ++ w).length < n := by
              rw [← hn, hw]
              simp only [List.length_append, List.length_cons]
              omega
            have hnone : (before ++ u).getLast?.any isNameCharacter = false →
                afterSite? (a :: name) (a :: (name ++ w)) = none := by
              intro hname
              refine afterSite?_append_eq_none ?_
              rw [hname] at hsite
              simpa using hsite
            have hcursor : utf8Length (before ++ u) + a.utf8Size =
                utf8Length (before ++ u ++ [a]) := by
              rw [utf8Length_append _ [a], utf8Length_singleton]
            rw [hcursor, List.cons_append, sites_of_none hnone, ih _ hlength hs' rfl,
              List.getLast?_concat, Option.any_some]

/-- The count by offsets, from the start of a text. -/
lemma loop_eq_countByScan (hoperator : operator ≠ []) (s : Text) :
    loop (Count.round (String.ofList operator) (String.ofList s)) ⟨0, 0⟩ =
      some (countByScan operator s) := by
  obtain ⟨a, name, rfl⟩ := List.exists_cons_of_ne_nil hoperator
  have hs : s = [] ++ s := rfl
  refine (loop_round hs).trans ?_
  rw [countByScan_eq_sites hoperator, Nat.zero_add]
  rfl

/-- **Call sites are counted by offsets as they are by characters.** -/
theorem countByBytes?_eq (operator s : Text) :
    countByBytes? (String.ofList operator) (String.ofList s) = some (countByScan operator s) := by
  by_cases hoperator : operator = []
  · subst hoperator
    rfl
  · rw [countByBytes?, if_neg (by simpa using hoperator), loop_eq_countByScan hoperator]

end CallCensus.CallSite
