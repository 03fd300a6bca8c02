import CallCensus.Proofs.Cleaning.CommentFree
import CallCensus.Proofs.Comment.Bytes
import CallCensus.Proofs.Literal.Bytes
import Mathlib.Algebra.Group.Nat.Even
import Mathlib.Data.List.DropRight
import Mathlib.Order.Bounds.Defs

/-!
Where quoted spans, literals and line comments end.

The scans read forward and step over what a backslash escapes. Whether a position is escaped can
also be told there, by looking back. The backslashes right before a quote are read in pairs, so the
quote is escaped if and only if their number is odd. A line comment does not read them in pairs:
there one backslash right before a line break escapes it, however many stand before that one. So
each token ends at the first position of a kind that is described without any scan.

* `Earliest`: the first position with a property;
* `backslashesBefore`, `ClosesAt`: quotes with an even number of backslashes right before them;
* `exists_earliest_closes`, `literal_closing?_eq_filter`: quoted spans are closed by the first of
  these, and literals too, if this is on the same line;
* `EndsLineAt`, `exists_earliest_endsLine`: line breaks with no backslash right before them, of
  which the first ends a line comment;
* `ends_earliest`: the same for the scans by bytes.
-/

namespace CallCensus.Cleaning

open Text

variable {P : ℕ → Prop} {first : Option ℕ} {c q : Char} {v w : Text} {i k n : ℕ}

/-! ### The first position -/

/-- The first position from `i` on that has a property, if there is one. -/
def Earliest (P : ℕ → Prop) (i : ℕ) : Option ℕ → Prop
  | some n => IsLeast {k | i ≤ k ∧ P k} n
  | none => ∀ k, i ≤ k → ¬P k

lemma Earliest.here (h : P i) : Earliest P i (some i) :=
  ⟨⟨Nat.le_refl i, h⟩, fun _ hk => hk.1⟩

/-- A position without the property can be left out. -/
lemma Earliest.later (hnot : ¬P i) (h : Earliest P (i + 1) first) : Earliest P i first := by
  have hlater : ∀ k, i ≤ k → P k → i + 1 ≤ k := by
    intro k hik hk
    refine Nat.lt_of_le_of_ne hik ?_
    rintro rfl
    exact hnot hk
  cases first with
  | none => exact fun k hik hk => h k (hlater k hik hk) hk
  | some n =>
      exact ⟨⟨Nat.le_of_succ_le h.1.1, h.1.2⟩, fun k hk => h.2 ⟨hlater k hk.1 hk.2, hk.2⟩⟩

/-! ### What stands before a position -/

lemma getElem?_of_drop (h : v.drop n = c :: w) : v[n]? = some c := by
  rw [← List.head?_drop, h, List.head?_cons]

lemma lt_length_of_drop (h : v.drop n = c :: w) : n < v.length :=
  (List.getElem?_eq_some_iff.1 (getElem?_of_drop h)).1

lemma drop_succ_of_drop (h : v.drop n = c :: w) : v.drop (n + 1) = w := by
  rw [← List.tail_drop, h, List.tail_cons]

lemma take_succ_of_drop (h : v.drop n = c :: w) : v.take (n + 1) = v.take n ++ [c] := by
  rw [List.take_add_one, getElem?_of_drop h, Option.toList_some]

lemma mem_take_of_drop (h : v.drop n = c :: w) (hlt : n < k) : c ∈ v.take k :=
  List.mem_of_getElem? ((List.getElem?_take_of_lt hlt).trans (getElem?_of_drop h))

/-- How many backslashes stand right before a position of a text, one after the other. -/
def backslashesBefore (v : Text) (n : ℕ) : ℕ :=
  ((v.take n).rtakeWhile (· == '\\')).length

lemma backslashesBefore_backslash (h : v.drop n = '\\' :: w) :
    backslashesBefore v (n + 1) = backslashesBefore v n + 1 := by
  rw [backslashesBefore, take_succ_of_drop h, List.rtakeWhile_concat_pos _ _ _ (by rfl),
    List.length_append]
  rfl

lemma backslashesBefore_ordinary (h : v.drop n = c :: w) (hc : c ≠ '\\') :
    backslashesBefore v (n + 1) = 0 := by
  rw [backslashesBefore, take_succ_of_drop h, List.rtakeWhile_concat_neg _ _ _ (by simpa using hc),
    List.length_nil]

/-- **Behind an escaped character the number of backslashes is even again**, whether it is a
backslash or not. -/
lemma even_backslashesBefore_escaped (h : v.drop n = '\\' :: c :: w)
    (heven : Even (backslashesBefore v n)) : Even (backslashesBefore v (n + 2)) := by
  have hnext := drop_succ_of_drop h
  by_cases hc : c = '\\'
  · subst hc
    rw [backslashesBefore_backslash hnext, backslashesBefore_backslash h, Nat.even_add_one,
      Nat.even_add_one, not_not]
    exact heven
  · rw [backslashesBefore_ordinary hnext hc]
    exact Even.zero

/-! ### Closing quotes -/

/-- At a position of the text behind an opening quote, the quote comes again with an even number of
backslashes right before it. -/
structure ClosesAt (q : Char) (v : Text) (n : ℕ) : Prop where
  quote : v[n]? = some q
  even : Even (backslashesBefore v n)

lemma not_closesAt_of_ne (h : v.drop n = c :: w) (hc : c ≠ q) : ¬ClosesAt q v n := by
  intro hcloses
  have hquote := hcloses.quote
  rw [getElem?_of_drop h, Option.some_inj] at hquote
  exact hc hquote

lemma not_closesAt_escaped (h : v.drop n = '\\' :: w) (heven : Even (backslashesBefore v n)) :
    ¬ClosesAt q v (n + 1) := by
  intro hcloses
  have hodd := hcloses.even
  rw [backslashesBefore_backslash h, Nat.even_add_one] at hodd
  exact hodd heven

lemma earliest_closes_of_drop (h : v.drop n = []) : Earliest (ClosesAt q v) n none := by
  intro k hnk hcloses
  have hlt := (List.getElem?_eq_some_iff.1 hcloses.quote).1
  have hle := List.drop_eq_nil_iff.1 h
  omega

/-- **A quoted span is closed by the first quote that has an even number of backslashes right
before it.** -/
lemma exists_earliest_closes (hq : q ≠ '\\') (hw : v.drop n = w)
    (heven : Even (backslashesBefore v n)) :
    ∃ first, Earliest (ClosesAt q v) n first ∧ Comment.closing? q w n = first.map (· + 1) := by
  -- The search never stands behind a backslash that escapes: the number before it stays even.
  fun_induction Comment.closing? q w n with
  | case1 n => exact ⟨none, earliest_closes_of_drop hw, rfl⟩
  | case2 n =>
      have hlast := earliest_closes_of_drop (q := q) (drop_succ_of_drop hw)
      exact ⟨none, .later (not_closesAt_of_ne hw hq.symm) hlast, rfl⟩
  | case3 c rest n ih =>
      have hnext := even_backslashesBefore_escaped hw heven
      obtain ⟨first, hfirst, hclosing⟩ := ih (drop_succ_of_drop (drop_succ_of_drop hw)) hnext
      have hbackslash := not_closesAt_of_ne hw hq.symm
      exact ⟨first, .later hbackslash (.later (not_closesAt_escaped hw heven) hfirst), hclosing⟩
  | case4 rest n hlast hescape => exact ⟨some n, .here ⟨getElem?_of_drop hw, heven⟩, rfl⟩
  | case5 c rest n hlast hescape hquote ih =>
      have hzero := backslashesBefore_ordinary hw (Comment.ne_backslash hlast hescape)
      obtain ⟨first, hfirst, hclosing⟩ := ih (drop_succ_of_drop hw) (hzero ▸ Even.zero)
      exact ⟨first, .later (not_closesAt_of_ne hw hquote) hfirst, hclosing⟩

lemma filter_closing?_eq_none {close : Option ℕ} (h : v.drop n = '\n' :: w)
    (hclose : ∀ k ∈ close, n + 1 < k) :
    (close.filter fun k => '\n' ∉ v.take (k - 1)) = none := by
  rw [Option.filter_eq_none_iff]
  intro k hk
  have hlt := hclose k hk
  simpa using mem_take_of_drop h (by omega : n < k - 1)

/-- **A literal is closed where a quoted span would be, if there is no line feed inside**, and not
at all otherwise. -/
lemma literal_closing?_eq_filter (hq : q ≠ '\\') (hw : v.drop n = w) (hfeed : '\n' ∉ v.take n) :
    Literal.closing? q w n =
      (Comment.closing? q w n).filter fun k => '\n' ∉ v.take (k - 1) := by
  fun_induction Literal.closing? q w n with
  | case1 => rfl
  | case2 rest n =>
      rw [Comment.closing?_quote hq, Option.filter_some, Nat.add_sub_cancel]
      simp [hfeed]
  | case3 rest n hquote =>
      rw [Comment.closing?_ordinary (by simp [hquote])]
      exact (filter_closing?_eq_none hw fun k hk => lt_of_closing? hk).symm
  | case4 n hquote => rfl
  | case5 n rest hquote =>
      rw [Comment.closing?_escape]
      exact (filter_closing?_eq_none (drop_succ_of_drop hw) fun k hk => lt_of_closing? hk).symm
  | case6 n escaped rest hescaped hquote hnewline ih =>
      rw [Comment.closing?_escape]
      refine ih (drop_succ_of_drop (drop_succ_of_drop hw)) ?_
      rw [take_succ_of_drop (drop_succ_of_drop hw), take_succ_of_drop hw]
      simp [hfeed, Ne.symm hescaped]
  | case7 c rest n hquote hnewline hbackslash ih =>
      rw [Comment.closing?_ordinary (by simp [hquote, hbackslash])]
      refine ih (drop_succ_of_drop hw) ?_
      rw [take_succ_of_drop hw]
      simp [hfeed, Ne.symm hnewline]

/-! ### Line breaks -/

/-- A line break comes next. -/
def StartsBreak (w : Text) : Prop :=
  ['\r', '\n'] <+: w ∨ ['\n'] <+: w

/-- At a position of the text behind the marker of a line comment, a line break starts, and no
backslash stands right before it. A line break is a carriage return and a line feed, or a line feed
with no carriage return before it. -/
structure EndsLineAt (v : Text) (n : ℕ) : Prop where
  breaks : ['\r', '\n'] <+: v.drop n ∨ ['\n'] <+: v.drop n ∧ (v.take n).getLast? ≠ some '\r'
  unescaped : (v.take n).getLast? ≠ some '\\'

lemma endsLineAt_zero : EndsLineAt v 0 ↔ StartsBreak v := by
  constructor
  · intro h
    exact h.breaks.imp id And.left
  · intro h
    exact ⟨h.imp id fun hfeed => ⟨hfeed, nofun⟩, nofun⟩

/-- Further on it depends on the character before it. -/
lemma endsLineAt_succ_iff (h : v.drop n = c :: w) :
    EndsLineAt v (n + 1) ↔ c ≠ '\\' ∧ (['\r', '\n'] <+: w ∨ ['\n'] <+: w ∧ c ≠ '\r') := by
  have hlast : (v.take (n + 1)).getLast? = some c := by
    rw [take_succ_of_drop h, List.getLast?_concat]
  constructor
  · rintro ⟨hbreaks, hunescaped⟩
    rw [drop_succ_of_drop h, hlast] at hbreaks
    rw [hlast] at hunescaped
    exact ⟨by simpa using hunescaped, by simpa using hbreaks⟩
  · rintro ⟨hbackslash, hbreaks⟩
    refine ⟨?_, ?_⟩
    · rw [drop_succ_of_drop h, hlast]
      simpa using hbreaks
    · rw [hlast]
      simpa using hbackslash

lemma endsLineAt_behind_feed (h : v.drop n = '\n' :: w) : EndsLineAt v (n + 1) ↔ StartsBreak w := by
  simp [endsLineAt_succ_iff h, StartsBreak]

lemma not_endsLineAt_escaped (h : v.drop n = '\\' :: w) : ¬EndsLineAt v (n + 1) := by
  simp [endsLineAt_succ_iff h]

lemma earliest_endsLine_of_drop (h : v.drop n = []) : Earliest (EndsLineAt v) n none := by
  intro k hnk hends
  have hdrop : v.drop k = [] :=
    List.drop_eq_nil_iff.2 (Nat.le_trans (List.drop_eq_nil_iff.1 h) hnk)
  have hbreaks := hends.breaks
  rw [hdrop] at hbreaks
  simp at hbreaks

/-- **A line comment ends at the first line break that has no backslash right before it**, or at
the end of the text. -/
lemma exists_earliest_endsLine (hn : n ≤ v.length) (hw : v.drop n = w)
    (hstart : EndsLineAt v n ↔ StartsBreak w) :
    ∃ first, Earliest (EndsLineAt v) n first ∧ Comment.lineEnd w n = first.getD v.length := by
  -- The search never stands behind a character that would change what a line break there means.
  fun_induction Comment.lineEnd w n with
  | case1 n =>
      exact ⟨none, earliest_endsLine_of_drop hw, Nat.le_antisymm hn (List.drop_eq_nil_iff.1 hw)⟩
  | case2 rest n ih =>
      have hreturn := drop_succ_of_drop hw
      have hfeed := drop_succ_of_drop hreturn
      have hnot : ¬StartsBreak ('\\' :: '\r' :: '\n' :: rest) := by simp [StartsBreak]
      -- The line feed is the second half of the line break that is escaped.
      have hhalf : ¬EndsLineAt v (n + 2) := by simp [endsLineAt_succ_iff hreturn]
      obtain ⟨first, hfirst, hend⟩ := ih (lt_length_of_drop hfeed) (drop_succ_of_drop hfeed)
        (endsLineAt_behind_feed hfeed)
      have hlater := Earliest.later (not_endsLineAt_escaped hw) (.later hhalf hfirst)
      exact ⟨first, .later (mt hstart.1 hnot) hlater, hend⟩
  | case3 rest n ih =>
      have hfeed := drop_succ_of_drop hw
      have hnot : ¬StartsBreak ('\\' :: '\n' :: rest) := by simp [StartsBreak]
      obtain ⟨first, hfirst, hend⟩ := ih (lt_length_of_drop hfeed) (drop_succ_of_drop hfeed)
        (endsLineAt_behind_feed hfeed)
      have hlater := Earliest.later (not_endsLineAt_escaped hw) hfirst
      exact ⟨first, .later (mt hstart.1 hnot) hlater, hend⟩
  | case4 rest n => exact ⟨some n, .here (hstart.2 (.inr ⟨rest, rfl⟩)), rfl⟩
  | case5 rest n => exact ⟨some n, .here (hstart.2 (.inl ⟨rest, rfl⟩)), rfl⟩
  | case6 c rest n hreturn hfeed hnotFeed hnotReturn ih =>
      have hnot : ¬StartsBreak (c :: rest) := by
        rintro (⟨tail, htail⟩ | ⟨tail, htail⟩)
        · cases htail
          exact hnotReturn tail rfl rfl
        · cases htail
          exact hnotFeed rfl
      have hnext : EndsLineAt v (n + 1) ↔ StartsBreak rest := by
        rw [endsLineAt_succ_iff hw]
        constructor
        · rintro ⟨-, hbreaks⟩
          exact hbreaks.imp id And.left
        · rintro (⟨tail, rfl⟩ | ⟨tail, rfl⟩)
          · exact ⟨fun hc => hreturn tail hc rfl, .inl ⟨tail, rfl⟩⟩
          · exact ⟨fun hc => hfeed tail hc rfl,
              .inr ⟨⟨tail, rfl⟩, fun hc => hnotReturn tail hc rfl⟩⟩
      obtain ⟨first, hfirst, hend⟩ := ih (lt_length_of_drop hw) (drop_succ_of_drop hw) hnext
      exact ⟨first, .later (mt hstart.1 hnot) hfirst, hend⟩

/-! ### Ends by characters and by bytes -/

/-- **Quoted spans, literals and line comments end at the first end that is not escaped.** Let `v`
be the text behind a quote, which may be any ASCII character but the backslash, or behind the marker
of a line comment, at any offset of a text. Behind the quote, a quoted span ends right after the
first place where the quote comes again with an even number of backslashes right before it, and is
never closed if there is none; a literal ends there too, unless a line feed comes before that place,
and then it is not closed. A line comment ends at the first line break of `v` that has no backslash
right before it, whatever comes before that, and with the text if there is none. All this holds of
the scans by characters and of those by bytes, where the end is an offset in the bytes. -/
theorem ends_earliest (s : Text) (i : ℕ) :
    (∀ q v, q.toNat < 0x80 → q ≠ '\\' → StartsAt s i (q :: v) →
      ∃ first, Earliest (ClosesAt q v) 0 first ∧
        Comment.closing? q v 0 = first.map (· + 1) ∧
        Literal.closing? q v 0 = (first.filter fun n => '\n' ∉ v.take n).map (· + 1) ∧
        Comment.closingAt? (String.ofList s).toUTF8 i =
          some (first.map fun n => behind i (q :: v) (n + 2)) ∧
        Literal.closingAt? (String.ofList s).toUTF8 i =
          some ((first.filter fun n => '\n' ∉ v.take n).map fun n => behind i (q :: v) (n + 2))) ∧
    ∀ v, StartsAt s i ('/' :: '/' :: v) →
      ∃ first, Earliest (EndsLineAt v) 0 first ∧
        Comment.lineEnd v 0 = first.getD v.length ∧
        Comment.lineEndAt? (String.ofList s).toUTF8 i =
          some (first.elim (utf8Length s) fun n => behind i ('/' :: '/' :: v) (n + 2)) := by
  refine ⟨fun q v hascii hq h => ?_, fun v h => ?_⟩
  · obtain ⟨first, hfirst, hspan⟩ := exists_earliest_closes hq (v := v) List.drop_zero Even.zero
    have hliteral := literal_closing?_eq_filter hq (v := v) List.drop_zero (by simp)
    rw [hspan, Option.filter_map] at hliteral
    refine ⟨first, hfirst, hspan, hliteral, ?_, ?_⟩
    · calc Comment.closingAt? (String.ofList s).toUTF8 i
          = some ((Comment.closing? q v 0).map fun n => behind i (q :: v) (n + 1)) :=
            Comment.closingAt?_eq hascii h
        _ = some (first.map fun n => behind i (q :: v) (n + 2)) := by
            rw [hspan, Option.map_map]
            rfl
    · calc Literal.closingAt? (String.ofList s).toUTF8 i
          = some ((Literal.closing? q v 0).map fun n => behind i (q :: v) (n + 1)) :=
            Literal.closingAt?_eq hascii h
        _ = some ((first.filter fun n => '\n' ∉ v.take n).map fun n =>
              behind i (q :: v) (n + 2)) := by
            rw [hliteral, Option.map_map]
            rfl
  · obtain ⟨first, hfirst, hend⟩ :=
      exists_earliest_endsLine (v := v) (Nat.zero_le _) List.drop_zero endsLineAt_zero
    refine ⟨first, hfirst, hend, ?_⟩
    calc Comment.lineEndAt? (String.ofList s).toUTF8 i
        = some (behind i ('/' :: '/' :: v) (first.getD v.length + 2)) := by
          rw [Comment.lineEndAt?_eq h, hend]
      _ = some (first.elim (utf8Length s) fun n => behind i ('/' :: '/' :: v) (n + 2)) := by
          cases first with
          | none => simp [behind, ← h.add_utf8Length]
          | some n => rfl

/-- A quoted span over a line break with an escaped quote and an escaped backslash, and a line
comment with an escaped line break behind two backslashes and a carriage return on its own. -/
def escapedEnds : Text :=
  ['é', '"', '\\', '"', '\n', '\\', '\\', '"', '/', '/', '\\', '\\', '\r', '\n', '\r', '\\', 'é',
    '\n', 'x']

/-- The span goes from offset 2 to offset 9 and is no literal, and the comment behind it ends at
offset 19. -/
theorem ends_earliest_escapedEnds :
    StartsAt escapedEnds 2 ('"' :: escapedEnds.drop 2) ∧
      Earliest (ClosesAt '"' (escapedEnds.drop 2)) 0 (some 5) ∧
      Comment.closingAt? (String.ofList escapedEnds).toUTF8 2 = some (some 9) ∧
      Literal.closingAt? (String.ofList escapedEnds).toUTF8 2 = some none ∧
      StartsAt escapedEnds 9 ('/' :: '/' :: escapedEnds.drop 10) ∧
      Earliest (EndsLineAt (escapedEnds.drop 10)) 0 (some 7) ∧
      Comment.lineEndAt? (String.ofList escapedEnds).toUTF8 9 = some 19 := by
  have hspan : StartsAt escapedEnds 2 ('"' :: escapedEnds.drop 2) := ⟨['é'], rfl, rfl⟩
  have hline : StartsAt escapedEnds 9 ('/' :: '/' :: escapedEnds.drop 10) :=
    ⟨escapedEnds.take 8, rfl, rfl⟩
  obtain ⟨close, hclose, hclosing, -, hbytes, hliteral⟩ :=
    (ends_earliest escapedEnds 2).1 '"' _ (by decide) (by decide) hspan
  obtain ⟨stop, hstop, hend, hlineEnd⟩ := (ends_earliest escapedEnds 9).2 _ hline
  obtain rfl : close = some 5 := by
    cases close with
    | none => cases hclosing
    | some n =>
        cases hclosing
        rfl
  obtain rfl : stop = some 7 := by
    cases stop with
    | none => cases hend
    | some n =>
        cases hend
        rfl
  exact ⟨hspan, hclose, hbytes, hliteral, hline, hstop, hlineEnd⟩

end CallCensus.Cleaning
