import CallCensus.Comment
import CallCensus.Proofs.Pattern.Machine

/-!
The tokens of the comment pattern and of the scan.

Each token of the pattern ends where the scan says. A quoted span and a block comment have one
end only: no character can be read both as a round of a repetition and as what comes after it.
A line comment has many, of which the first counts; before the end that the scan finds,
nothing that may end a line comment comes next.

The scan counts characters, so its result is compared with what the pattern has taken: the
count starts from what is taken before and comes to what is taken after.

* `closing?_of_mem_ends_spanTail`, `exists_mem_ends_spanTail`: quoted spans;
* `blockEnd?_of_mem_ends_blockTail`, `exists_mem_ends_blockTail`: block comments;
* `exists_first?_lineTail`: line comments.
-/

namespace CallCensus.Comment

open Pattern

variable {q c : Char} {s rest : Text} {n : ℕ} {here there mid : Cursor}

/-- A scan that counts on from what was counted before counts as much from the start. -/
lemma eq_some_sub_of_succ {f : ℕ → Option ℕ} (hf : ∀ n, f (n + 1) = (f n).map (· + 1)) {m : ℕ}
    (h : f n = some m) : f 0 = some (m - n) := by
  induction n generalizing m with
  | zero => exact h
  | succ n ih =>
      rw [hf, Option.map_eq_some_iff] at h
      obtain ⟨k, hk, rfl⟩ := h
      rw [ih hk, Nat.add_sub_add_right]

lemma mem_ends_noneOf {cs : List Char} :
    there ∈ (noneOf cs).ends here ↔
      ∃ c rest, c ∉ cs ∧ here.rest = c :: rest ∧ there = here.after [c] rest := by
  rw [noneOf, mem_ends_one]
  simp

lemma mem_ends_char :
    there ∈ (char c).ends here ↔ ∃ rest, here.rest = c :: rest ∧ there = here.after [c] rest := by
  rw [Pattern.char, mem_ends_one]
  simp

lemma mem_ends_any :
    there ∈ Pattern.any.ends here ↔
      ∃ c rest, here.rest = c :: rest ∧ there = here.after [c] rest := by
  rw [Pattern.any, mem_ends_one]
  simp

/-! ### Quoted spans -/

/-- What the pattern of a quoted span has after the opening quote. -/
def spanTail (q : Char) : Pattern :=
  sequence [many (noneOf [q, '\\']),
    many (sequence [char '\\', any, many (noneOf [q, '\\'])]), char q]

lemma ne_backslash (hend : c = '\\' → rest = [] → False)
    (hescape : ∀ d tail, c = '\\' → rest = d :: tail → False) : c ≠ '\\' := by
  intro hc
  cases rest with
  | nil => exact hend hc rfl
  | cons d tail => exact hescape d tail hc rfl

lemma closing?_quote (h : q ≠ '\\') : closing? q (q :: rest) n = some (n + 1) := by
  simp [closing?, h]

lemma closing?_ordinary (h : c ∉ [q, '\\']) :
    closing? q (c :: rest) n = closing? q rest (n + 1) := by
  simp only [List.mem_cons, List.not_mem_nil, or_false, not_or] at h
  simp [closing?, h]

/-- The scan counts from the characters already counted. -/
lemma closing?_succ (q : Char) (s : Text) (n : ℕ) :
    closing? q s (n + 1) = (closing? q s n).map (· + 1) := by
  fun_induction closing? q s n with
  | case1 => rfl
  | case2 => rfl
  | case3 c rest n ih => rw [closing?_escape, ih]
  | case4 rest n hlast hescape => rw [closing?.eq_4 _ _ _ _ hlast hescape, if_pos rfl]; rfl
  | case5 c rest n hlast hescape hc ih =>
      rw [closing?.eq_4 _ _ _ _ hlast hescape, if_neg hc, ih]

lemma closing?_zero {m : ℕ} (h : closing? q s n = some m) : closing? q s 0 = some (m - n) :=
  eq_some_sub_of_succ (closing?_succ q s) h

lemma closing?_of_mem_ends_ordinary (h : mid ∈ (many (noneOf [q, '\\'])).ends here) :
    closing? q here.rest here.taken = closing? q mid.rest mid.taken := by
  refine eq_of_mem_ends_many (f := fun here => closing? q here.rest here.taken) ?_ h
  intro here next hnext
  obtain ⟨c, rest, hc, hrest, rfl⟩ := mem_ends_noneOf.1 hnext
  show closing? q here.rest here.taken = closing? q rest (here.taken + 1)
  rw [hrest, closing?_ordinary hc]

/-- Escaped characters of a quoted span, each with the ordinary ones after it. -/
lemma closing?_of_mem_ends_escapes
    (h : mid ∈ (many (sequence [char '\\', any, many (noneOf [q, '\\'])])).ends here) :
    closing? q here.rest here.taken = closing? q mid.rest mid.taken := by
  refine eq_of_mem_ends_many (f := fun here => closing? q here.rest here.taken) ?_ h
  intro here next hnext
  obtain ⟨escaping, hescaping, hnext⟩ := mem_ends_sequence_cons.1 hnext
  obtain ⟨escaped, hescaped, hnext⟩ := mem_ends_sequence_cons.1 hnext
  obtain ⟨rest, hrest, rfl⟩ := mem_ends_char.1 hescaping
  obtain ⟨c, rest', hrest', rfl⟩ := mem_ends_any.1 hescaped
  rw [Cursor.rest_after] at hrest'
  calc closing? q here.rest here.taken
      = closing? q ('\\' :: c :: rest') here.taken := by rw [hrest, hrest']
    _ = closing? q rest' (here.taken + 2) := closing?_escape c
    _ = closing? q next.rest next.taken := closing?_of_mem_ends_ordinary hnext

lemma closing?_of_mem_ends_spanTail (hq : q ≠ '\\') (h : there ∈ (spanTail q).ends here) :
    closing? q here.rest here.taken = some there.taken := by
  obtain ⟨mid, hmid, h⟩ := mem_ends_sequence_cons.1 h
  obtain ⟨last, hlast, h⟩ := mem_ends_sequence_cons.1 h
  obtain ⟨rest, hrest, rfl⟩ := mem_ends_char.1 h
  rw [closing?_of_mem_ends_ordinary hmid, closing?_of_mem_ends_escapes hlast, hrest,
    closing?_quote hq]
  rfl

lemma mem_ends_spanTail_quote (h : here.rest = q :: rest) :
    here.after [q] rest ∈ (spanTail q).ends here := by
  refine mem_ends_sequence_cons.2 ⟨here, mem_ends_many.2 (.inl rfl), ?_⟩
  refine mem_ends_sequence_cons.2 ⟨here, mem_ends_many.2 (.inl rfl), ?_⟩
  exact mem_ends_char.2 ⟨rest, h, rfl⟩

lemma mem_ends_spanTail_ordinary (hc : c ∉ [q, '\\']) (h : here.rest = c :: rest)
    (hthere : there ∈ (spanTail q).ends (here.after [c] rest)) :
    there ∈ (spanTail q).ends here := by
  obtain ⟨mid, hmid, hthere⟩ := mem_ends_sequence_cons.1 hthere
  refine mem_ends_sequence_cons.2 ⟨mid, ?_, hthere⟩
  exact mem_ends_many_of_round (mem_ends_noneOf.2 ⟨c, rest, hc, h, rfl⟩)
    (Cursor.length_rest_after_lt h) hmid

lemma mem_ends_spanTail_escape (h : here.rest = '\\' :: c :: rest)
    (hthere : there ∈ (spanTail q).ends (here.after ['\\', c] rest)) :
    there ∈ (spanTail q).ends here := by
  obtain ⟨mid, hmid, hthere⟩ := mem_ends_sequence_cons.1 hthere
  obtain ⟨last, hlast, hthere⟩ := mem_ends_sequence_cons.1 hthere
  have hround : mid ∈ (sequence [char '\\', any, many (noneOf [q, '\\'])]).ends here := by
    refine mem_ends_sequence_cons.2 ⟨here.after ['\\'] (c :: rest), ?_, ?_⟩
    · exact mem_ends_char.2 ⟨_, h, rfl⟩
    refine mem_ends_sequence_cons.2 ⟨here.after ['\\', c] rest, ?_, hmid⟩
    exact mem_ends_any.2 ⟨c, rest, rfl, by rw [Cursor.after_after]; rfl⟩
  have hlength := (reaches_of_mem_ends _ _ mid hmid).length_le
  have hlt : mid.rest.length < here.rest.length := by
    rw [Cursor.rest_after] at hlength
    rw [h, List.length_cons, List.length_cons]
    omega
  refine mem_ends_sequence_cons.2 ⟨here, mem_ends_many.2 (.inl rfl), ?_⟩
  exact mem_ends_sequence_cons.2 ⟨last, mem_ends_many_of_round hround hlt hlast, hthere⟩

/-- Where the scan closes a quoted span, the pattern has an end. -/
lemma exists_mem_ends_spanTail (h : (closing? q s n).isSome) (here : Cursor)
    (hs : here.rest = s) : ∃ there, there ∈ (spanTail q).ends here := by
  fun_induction closing? q s n generalizing here with
  | case1 => cases h
  | case2 => cases h
  | case3 c rest n ih =>
      obtain ⟨there, hthere⟩ := ih h (here.after ['\\', c] rest) rfl
      exact ⟨there, mem_ends_spanTail_escape hs hthere⟩
  | case4 rest n => exact ⟨_, mem_ends_spanTail_quote hs⟩
  | case5 c rest n hlast hescape hc ih =>
      obtain ⟨there, hthere⟩ := ih h (here.after [c] rest) rfl
      have hbackslash : c ≠ '\\' := ne_backslash hlast hescape
      exact ⟨there, mem_ends_spanTail_ordinary (by simp [hc, hbackslash]) hs hthere⟩

/-! ### Block comments -/

/-- What comes between two runs of asterisks in a block comment, with the second of them. -/
def blockRound : Pattern :=
  sequence [noneOf ['/', '*'], many (noneOf ['*']), manyOne (char '*')]

/-- What the pattern of a block comment has after a run of asterisks. -/
def blockClose : Pattern :=
  seq (many blockRound) (char '/')

/-- What the pattern of a block comment has after its opening marker, up to the closing one. -/
def blockTail : Pattern :=
  sequence [many (noneOf ['*']), manyOne (char '*'), blockClose]

lemma blockEnd?_star (h : c ≠ '/') :
    blockEnd? ('*' :: c :: rest) n = blockEnd? (c :: rest) (n + 1) := by
  rw [blockEnd?]
  rintro tail -
  simp [h]

lemma blockEnd?_ordinary (h : c ≠ '*') : blockEnd? (c :: rest) n = blockEnd? rest (n + 1) := by
  rw [blockEnd?]
  intro tail hstar
  exact (h hstar).elim

lemma blockEnd?_succ (s : Text) (n : ℕ) :
    blockEnd? s (n + 1) = (blockEnd? s n).map (· + 1) := by
  fun_induction blockEnd? s n with
  | case1 => rfl
  | case2 => simp [blockEnd?]
  | case3 c rest n hend ih => rw [blockEnd?.eq_3 _ _ _ hend, ih]

lemma blockEnd?_zero {m : ℕ} (h : blockEnd? s n = some m) : blockEnd? s 0 = some (m - n) :=
  eq_some_sub_of_succ (blockEnd?_succ s) h

lemma blockEnd?_of_mem_ends_ordinary (h : mid ∈ (many (noneOf ['*'])).ends here) :
    blockEnd? here.rest (here.taken + 1) = blockEnd? mid.rest (mid.taken + 1) := by
  refine eq_of_mem_ends_many (f := fun here => blockEnd? here.rest (here.taken + 1)) ?_ h
  intro here next hnext
  obtain ⟨c, rest, hc, hrest, rfl⟩ := mem_ends_noneOf.1 hnext
  show blockEnd? here.rest (here.taken + 1) = blockEnd? rest (here.taken + 1 + 1)
  rw [hrest, blockEnd?_ordinary (by simpa using hc)]

/-- A run of asterisks is read like the last of them. -/
lemma blockEnd?_of_mem_ends_stars (h : mid ∈ (manyOne (char '*')).ends here) :
    blockEnd? here.rest (here.taken + 1) = blockEnd? ('*' :: mid.rest) mid.taken := by
  obtain ⟨next, hnext, hmid⟩ := List.mem_flatMap.1 h
  obtain ⟨rest, hrest, rfl⟩ := mem_ends_char.1 hnext
  have hmore : ∀ here, ∀ next ∈ (char '*').ends here,
      blockEnd? ('*' :: here.rest) here.taken = blockEnd? ('*' :: next.rest) next.taken := by
    intro here next hnext
    obtain ⟨rest, hrest, rfl⟩ := mem_ends_char.1 hnext
    rw [hrest, blockEnd?_star (by decide)]
    rfl
  calc blockEnd? here.rest (here.taken + 1)
      = blockEnd? ('*' :: rest) (here.taken + 1) := by rw [hrest]
    _ = blockEnd? ('*' :: mid.rest) mid.taken :=
        eq_of_mem_ends_many (f := fun here => blockEnd? ('*' :: here.rest) here.taken) hmore hmid

/-- Rounds of a block comment after a run of asterisks. -/
lemma blockEnd?_of_mem_ends_rounds (h : mid ∈ (many blockRound).ends here) :
    blockEnd? ('*' :: here.rest) here.taken = blockEnd? ('*' :: mid.rest) mid.taken := by
  refine eq_of_mem_ends_many (f := fun here => blockEnd? ('*' :: here.rest) here.taken) ?_ h
  intro here next hnext
  obtain ⟨first, hfirst, hothers⟩ := mem_ends_sequence_cons.1 hnext
  obtain ⟨stars, hstars, hlast⟩ := mem_ends_sequence_cons.1 hothers
  obtain ⟨c, rest, hc, hrest, rfl⟩ := mem_ends_noneOf.1 hfirst
  simp only [List.mem_cons, List.not_mem_nil, or_false, not_or] at hc
  calc blockEnd? ('*' :: here.rest) here.taken
      = blockEnd? (c :: rest) (here.taken + 1) := by rw [hrest, blockEnd?_star hc.1]
    _ = blockEnd? rest (here.taken + 1 + 1) := blockEnd?_ordinary hc.2
    _ = blockEnd? stars.rest (stars.taken + 1) := blockEnd?_of_mem_ends_ordinary hstars
    _ = blockEnd? ('*' :: next.rest) next.taken := blockEnd?_of_mem_ends_stars hlast

/-- Where the pattern of a block comment ends, so does the comment for the scan. -/
lemma blockEnd?_of_mem_ends_blockTail (h : there ∈ blockTail.ends here) :
    blockEnd? here.rest here.taken = some there.taken := by
  obtain ⟨stars, hstars, h⟩ := mem_ends_sequence_cons.1 h
  obtain ⟨mid, hmid, h⟩ := mem_ends_sequence_cons.1 h
  obtain ⟨last, hlast, h⟩ := List.mem_flatMap.1 h
  obtain ⟨rest, hrest, rfl⟩ := mem_ends_char.1 h
  have hcount : blockEnd? here.rest (here.taken + 1) = some (last.taken + 2) := by
    rw [blockEnd?_of_mem_ends_ordinary hstars, blockEnd?_of_mem_ends_stars hmid,
      blockEnd?_of_mem_ends_rounds hlast, hrest, blockEnd?]
  rw [blockEnd?_succ, Option.map_eq_some_iff] at hcount
  obtain ⟨k, hk, hsucc⟩ := hcount
  rw [hk, Cursor.taken_after]
  congr 1
  simpa using hsucc

lemma length_lt_of_mem_ends {p : Pattern} (h : here.rest = c :: rest)
    (hthere : there ∈ p.ends (here.after [c] rest)) : there.rest.length < here.rest.length := by
  have hlength := (reaches_of_mem_ends p _ there hthere).length_le
  rw [Cursor.rest_after] at hlength
  rw [h, List.length_cons]
  omega

lemma mem_ends_stars (h : here.rest = '*' :: rest)
    (hthere : there ∈ (many (char '*')).ends (here.after ['*'] rest)) :
    there ∈ (many (char '*')).ends here := by
  exact mem_ends_many_of_round (mem_ends_char.2 ⟨rest, h, rfl⟩) (Cursor.length_rest_after_lt h)
    hthere

lemma mem_ends_blockTail_ordinary (hc : c ≠ '*') (h : here.rest = c :: rest)
    (hthere : there ∈ blockTail.ends (here.after [c] rest)) : there ∈ blockTail.ends here := by
  obtain ⟨mid, hmid, hthere⟩ := mem_ends_sequence_cons.1 hthere
  refine mem_ends_sequence_cons.2 ⟨mid, ?_, hthere⟩
  exact mem_ends_many_of_round (mem_ends_noneOf.2 ⟨c, rest, by simpa using hc, h, rfl⟩)
    (Cursor.length_rest_after_lt h) hmid

lemma mem_ends_blockTail_star (h : here.rest = '*' :: rest)
    (hthere : there ∈ (seq (many (char '*')) blockClose).ends (here.after ['*'] rest)) :
    there ∈ blockTail.ends here := by
  obtain ⟨mid, hmid, hthere⟩ := List.mem_flatMap.1 hthere
  refine mem_ends_sequence_cons.2 ⟨here, mem_ends_many.2 (.inl rfl), ?_⟩
  refine mem_ends_sequence_cons.2 ⟨mid, ?_, hthere⟩
  exact List.mem_flatMap.2 ⟨_, mem_ends_char.2 ⟨rest, h, rfl⟩, hmid⟩

/-- After asterisks, a character that does not close the comment starts a round. -/
lemma mem_ends_blockClose_round (hc : c ∉ ['/', '*']) (h : here.rest = c :: rest)
    (hthere : there ∈ blockTail.ends (here.after [c] rest)) : there ∈ blockClose.ends here := by
  obtain ⟨ordinary, hordinary, hstars⟩ := mem_ends_sequence_cons.1 hthere
  obtain ⟨mid, hmid, hclose⟩ := mem_ends_sequence_cons.1 hstars
  obtain ⟨last, hlast, hend⟩ := List.mem_flatMap.1 hclose
  have hafter : mid ∈ (seq (many (noneOf ['*'])) (manyOne (char '*'))).ends
      (here.after [c] rest) := List.mem_flatMap.2 ⟨ordinary, hordinary, hmid⟩
  have hround : mid ∈ blockRound.ends here :=
    List.mem_flatMap.2 ⟨_, mem_ends_noneOf.2 ⟨c, rest, hc, h, rfl⟩, hafter⟩
  refine List.mem_flatMap.2 ⟨last, ?_, hend⟩
  exact mem_ends_many_of_round hround (length_lt_of_mem_ends h hafter) hlast

/-- Where the scan ends a block comment, the pattern has an end: from inside the comment, and
from after an asterisk. -/
lemma exists_mem_ends_block (s : Text) :
    (∀ here n, here.rest = s → (blockEnd? s n).isSome →
      ∃ there, there ∈ blockTail.ends here) ∧
    (∀ here n, here.rest = s → (blockEnd? ('*' :: s) n).isSome →
      ∃ there, there ∈ (seq (many (char '*')) blockClose).ends here) := by
  induction s with
  | nil =>
      constructor
      · intro here n _ h
        cases h
      · intro here n _ h
        cases h
  | cons c s ih =>
      obtain ⟨ihTail, ihStar⟩ := ih
      constructor
      · intro here n hs h
        by_cases hc : c = '*'
        · subst hc
          obtain ⟨there, hthere⟩ := ihStar (here.after ['*'] s) n rfl h
          exact ⟨there, mem_ends_blockTail_star hs hthere⟩
        · rw [blockEnd?_ordinary hc] at h
          obtain ⟨there, hthere⟩ := ihTail (here.after [c] s) _ rfl h
          exact ⟨there, mem_ends_blockTail_ordinary hc hs hthere⟩
      · intro here n hs h
        by_cases hslash : c = '/'
        · subst hslash
          refine ⟨here.after ['/'] s, List.mem_flatMap.2 ⟨here, mem_ends_many.2 (.inl rfl), ?_⟩⟩
          refine List.mem_flatMap.2 ⟨here, mem_ends_many.2 (.inl rfl), ?_⟩
          exact mem_ends_char.2 ⟨s, hs, rfl⟩
        rw [blockEnd?_star hslash] at h
        by_cases hc : c = '*'
        · subst hc
          obtain ⟨there, hthere⟩ := ihStar (here.after ['*'] s) _ rfl h
          obtain ⟨mid, hmid, hthere⟩ := List.mem_flatMap.1 hthere
          exact ⟨there, List.mem_flatMap.2 ⟨mid, mem_ends_stars hs hmid, hthere⟩⟩
        · rw [blockEnd?_ordinary hc] at h
          obtain ⟨there, hthere⟩ := ihTail (here.after [c] s) _ rfl h
          have hround := mem_ends_blockClose_round (by simp [hslash, hc]) hs hthere
          exact ⟨there, List.mem_flatMap.2 ⟨here, mem_ends_many.2 (.inl rfl), hround⟩⟩

lemma exists_mem_ends_blockTail (here : Cursor) (h : (blockEnd? here.rest n).isSome) :
    ∃ there, there ∈ blockTail.ends here :=
  (exists_mem_ends_block here.rest).1 here n rfl h

/-! ### Line comments -/

/-- What may end a line comment. -/
def lineTail : Pattern :=
  firstOf foldedBreak [ahead lineBreak, textEnd]

lemma lineComment_eq :
    lineComment = seq (exactly ['/', '/']) (seq (few lineCommentCharacter) lineTail) := rfl

/-- The scan counts from the characters already counted. -/
lemma lineEnd_succ (s : Text) (n : ℕ) : lineEnd s (n + 1) = lineEnd s n + 1 := by
  fun_induction lineEnd s n with
  | case1 => rfl
  | case2 rest n ih => rw [lineEnd, ih]
  | case3 rest n ih => rw [lineEnd, ih]
  | case4 => rw [lineEnd]
  | case5 => rw [lineEnd]
  | case6 c rest n hreturn hfeed hnotFeed hnotReturn ih =>
      rw [lineEnd.eq_6 _ _ _ hreturn hfeed hnotFeed hnotReturn, ih]

lemma lineEnd_eq (s : Text) (n : ℕ) : lineEnd s n = lineEnd s 0 + n := by
  induction n with
  | zero => rfl
  | succ n ih => rw [lineEnd_succ, ih, Nat.add_assoc]

lemma isBlank_of_lineBreak {u : Text} (hu : u = ['\n'] ∨ u = ['\r', '\n']) :
    ∀ c ∈ u, Unicode.isBlank c = true := by
  rcases hu with rfl | rfl
  · exact List.all_eq_true.1 rfl
  · exact List.all_eq_true.1 rfl

/-- A line break is a line feed, or a carriage return and a line feed. -/
lemma mem_ends_lineBreak :
    there ∈ lineBreak.ends here ↔
      ∃ u rest, (u = ['\n'] ∨ u = ['\r', '\n']) ∧ here.rest = u ++ rest ∧
        there = here.after u rest := by
  rw [lineBreak, ends, List.mem_flatMap]
  constructor
  · rintro ⟨mid, hmid, hthere⟩
    obtain ⟨rest, hrest, rfl⟩ := mem_ends_char.1 hthere
    rcases List.mem_append.1 hmid with hmid | hmid
    · obtain ⟨rest', hrest', rfl⟩ := mem_ends_char.1 hmid
      rw [Cursor.rest_after] at hrest
      exact ⟨_, rest, .inr rfl, by rw [hrest', hrest]; rfl, by rw [Cursor.after_after]; rfl⟩
    · obtain rfl := List.mem_singleton.1 hmid
      exact ⟨_, rest, .inl rfl, hrest, rfl⟩
  · rintro ⟨u, rest, rfl | rfl, hrest, rfl⟩
    · exact ⟨here, List.mem_append_right _ List.mem_cons_self, mem_ends_char.2 ⟨rest, hrest, rfl⟩⟩
    · refine ⟨here.after ['\r'] ('\n' :: rest), List.mem_append_left _ ?_, ?_⟩
      · exact mem_ends_char.2 ⟨_, hrest, rfl⟩
      · exact mem_ends_char.2 ⟨rest, rfl, by rw [Cursor.after_after]; rfl⟩

lemma first?_lineBreak {u : Text} (hu : u = ['\n'] ∨ u = ['\r', '\n'])
    (h : here.rest = u ++ rest) : lineBreak.first? here = some (here.after u rest) := by
  refine first?_eq_some (mem_ends_lineBreak.2 ⟨u, rest, hu, h, rfl⟩) fun other hother => ?_
  obtain ⟨v, rest', hv, hrest, rfl⟩ := mem_ends_lineBreak.1 hother
  rw [h] at hrest
  rcases hu with rfl | rfl <;> rcases hv with rfl | rfl <;> cases hrest <;> rfl

lemma first?_lineTail_eq_none (hne : here.rest ≠ []) (h : lineBreak.first? here = none) :
    lineTail.first? here = none := by
  have hends : lineBreak.ends here = [] := List.head?_eq_none_iff.1 h
  have hempty : ¬here.rest.isEmpty = true := by rwa [List.isEmpty_iff]
  simp [lineTail, firstOf, first?, foldedBreak, ends, hends, hempty]

/-- A line comment may end at a line break or at the end of the text. -/
lemma first?_lineTail_isSome (h : here.rest = [] ∨ (lineBreak.first? here).isSome) :
    (lineTail.first? here).isSome := by
  rcases h with h | h
  · have hend : here ∈ lineTail.ends here := by simp [lineTail, firstOf, ends, h]
    exact first?_isSome hend
  · obtain ⟨there, hthere⟩ := Option.isSome_iff_exists.1 h
    rw [first?] at hthere
    have hend : { here with groups := there.groups } ∈ lineTail.ends here := by
      simp [lineTail, firstOf, ends, hthere]
    exact first?_isSome hend

/-- A character other than a backslash. -/
lemma first?_lineCommentCharacter (hc : c ≠ '\\') (h : here.rest = c :: rest) :
    lineCommentCharacter.first? here = some (here.after [c] rest) := by
  refine first?_eq_some ?_ fun other hother => ?_
  · exact List.mem_append_left _ (mem_ends_noneOf.2 ⟨c, rest, by simpa using hc, h, rfl⟩)
  · rcases List.mem_append.1 hother with hother | hother
    · obtain ⟨c', rest', -, hrest, rfl⟩ := mem_ends_noneOf.1 hother
      rw [h] at hrest
      cases hrest
      rfl
    · obtain ⟨mid, hmid, -⟩ := List.mem_flatMap.1 hother
      obtain ⟨rest', hrest, -⟩ := mem_ends_char.1 hmid
      rw [h] at hrest
      cases hrest
      exact (hc rfl).elim

/-- A backslash takes a line break after it along. -/
lemma first?_lineCommentCharacter_backslash (h : here.rest = '\\' :: rest) :
    lineCommentCharacter.first? here =
      (lineBreak.first? (here.after ['\\'] rest)).or (some (here.after ['\\'] rest)) := by
  have hordinary : (noneOf ['\\']).first? here = none := by
    refine first?_eq_none fun there hthere => ?_
    obtain ⟨c, rest', hc, hrest, -⟩ := mem_ends_noneOf.1 hthere
    rw [h] at hrest
    cases hrest
    simp at hc
  have hbackslash : (char '\\').ends here = [here.after ['\\'] rest] := by
    simp only [Pattern.char, ends, Cursor.next?, h]
    rfl
  rw [lineCommentCharacter, first?_alt, hordinary, Option.none_or, first?_seq, hbackslash]
  simp [Pattern.optional, first?, ends]

lemma first?_lineCommentCharacter_lineBreak {u : Text} (hu : u = ['\n'] ∨ u = ['\r', '\n'])
    (h : here.rest = '\\' :: (u ++ rest)) :
    lineCommentCharacter.first? here = some (here.after ('\\' :: u) rest) := by
  have hbreak : lineBreak.first? (here.after ['\\'] (u ++ rest)) = _ := first?_lineBreak hu rfl
  rw [first?_lineCommentCharacter_backslash h, hbreak, Option.some_or, Cursor.after_after]
  rfl

lemma first?_lineBreak_eq_none (hfeed : ∀ tail, here.rest ≠ '\n' :: tail)
    (hreturn : ∀ tail, here.rest ≠ '\r' :: '\n' :: tail) : lineBreak.first? here = none := by
  refine first?_eq_none fun there hthere => ?_
  obtain ⟨u, rest, hu, hrest, -⟩ := mem_ends_lineBreak.1 hthere
  rcases hu with rfl | rfl
  · exact hfeed rest hrest
  · exact hreturn rest hrest

/-- Where one more character is read, the end of the comment is the one found after it. -/
lemma exists_first?_of_character {next : Cursor} (hne : here.rest ≠ [])
    (hbreak : lineBreak.first? here = none)
    (hcharacter : lineCommentCharacter.first? here = some next)
    (hlt : next.rest.length < here.rest.length)
    (h : ∃ mid there, next.Reaches mid ∧ mid.taken = lineEnd next.rest next.taken ∧
      (seq (few lineCommentCharacter) lineTail).first? next = some there ∧
        there ∈ lineTail.ends mid)
    (hcount : lineEnd next.rest next.taken = n) :
    ∃ mid there, here.Reaches mid ∧ mid.taken = n ∧
      (seq (few lineCommentCharacter) lineTail).first? here = some there ∧
        there ∈ lineTail.ends mid := by
  obtain ⟨mid, there, hreaches, htaken, hfirst, hthere⟩ := h
  refine ⟨mid, there, ?_, htaken.trans hcount, ?_, hthere⟩
  · exact (reaches_of_mem_ends _ _ _ (mem_ends_of_first? hcharacter)).trans hreaches
  · exact first?_few_seq_of_round (first?_lineTail_eq_none hne hbreak) hcharacter hlt hfirst

/-- Where the text ends or a line break comes next, the comment ends: this is tried before any
further character. -/
lemma exists_first?_of_stop (h : here.rest = [] ∨ (lineBreak.first? here).isSome) :
    ∃ mid there, here.Reaches mid ∧ mid.taken = here.taken ∧
      (seq (few lineCommentCharacter) lineTail).first? here = some there ∧
        there ∈ lineTail.ends mid := by
  obtain ⟨there, hthere⟩ := Option.isSome_iff_exists.1 (first?_lineTail_isSome h)
  refine ⟨here, there, .refl here, rfl, ?_, mem_ends_of_first? hthere⟩
  rw [first?_few_seq, hthere, Option.some_or]

/-- **A line comment ends where the scan says**, up to what is taken along of the line break
there. -/
lemma exists_first?_lineTail (here : Cursor) (hs : here.rest = s) (hn : here.taken = n) :
    ∃ mid there, here.Reaches mid ∧ mid.taken = lineEnd s n ∧
      (seq (few lineCommentCharacter) lineTail).first? here = some there ∧
        there ∈ lineTail.ends mid := by
  -- The pattern reads the comment in the same steps as the scan.
  fun_induction lineEnd s n generalizing here with
  | case1 n => exact hn ▸ exists_first?_of_stop (.inl hs)
  | case2 rest n ih =>
      have hnone : lineBreak.first? here = none :=
        first?_lineBreak_eq_none (by simp [hs]) (by simp [hs])
      have hnext : lineCommentCharacter.first? here = some (here.after ['\\', '\r', '\n'] rest) :=
        first?_lineCommentCharacter_lineBreak (.inr rfl) hs
      subst hn
      exact exists_first?_of_character (by simp [hs]) hnone hnext
        (Cursor.length_rest_after_lt hs) (ih _ rfl rfl) rfl
  | case3 rest n ih =>
      have hnone : lineBreak.first? here = none :=
        first?_lineBreak_eq_none (by simp [hs]) (by simp [hs])
      have hnext : lineCommentCharacter.first? here = some (here.after ['\\', '\n'] rest) :=
        first?_lineCommentCharacter_lineBreak (.inl rfl) hs
      subst hn
      exact exists_first?_of_character (by simp [hs]) hnone hnext
        (Cursor.length_rest_after_lt hs) (ih _ rfl rfl) rfl
  | case4 rest n =>
      have hbreak := first?_lineBreak (.inl rfl) hs
      exact hn ▸ exists_first?_of_stop (.inr (by rw [hbreak]; rfl))
  | case5 rest n =>
      have hbreak := first?_lineBreak (.inr rfl) hs
      exact hn ▸ exists_first?_of_stop (.inr (by rw [hbreak]; rfl))
  | case6 c rest n hreturn hfeed hnotFeed hnotReturn ih =>
      have hnone : lineBreak.first? here = none := by
        refine first?_lineBreak_eq_none ?_ ?_
        · rintro tail h
          rw [hs] at h
          cases h
          exact hnotFeed rfl
        · rintro tail h
          rw [hs] at h
          cases h
          exact hnotReturn _ rfl rfl
      have hnext : lineCommentCharacter.first? here = some (here.after [c] rest) := by
        by_cases hc : c = '\\'
        · subst hc
          have hafter : lineBreak.first? (here.after ['\\'] rest) = none := by
            refine first?_lineBreak_eq_none ?_ ?_
            · exact fun tail h => hfeed tail rfl h
            · exact fun tail h => hreturn tail rfl h
          rw [first?_lineCommentCharacter_backslash hs, hafter, Option.none_or]
        · exact first?_lineCommentCharacter hc hs
      subst hn
      exact exists_first?_of_character (by simp [hs]) hnone hnext
        (Cursor.length_rest_after_lt hs) (ih _ rfl rfl) rfl

end CallCensus.Comment
