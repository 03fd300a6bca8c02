import CallCensus.Comment.Bytes
import CallCensus.Proofs.Comment.Cuts
import CallCensus.Proofs.Text.Pass

/-!
Comments found by bytes and by characters.

* `closingAt?_eq`, `lineEndAt?_eq`, `blockEndAt?_eq`: the tokens end behind the same characters;
* `follows_pieces`, `stripByBytes?_eq`: the removal by bytes follows the pieces of the text;
* `advances_closingRound`, `advances_lineEndRound`, `lt_of_spotAt?`: the cursors move on.
-/

namespace CallCensus.Comment

open Text Utf8

variable {s v rest : Text} {c d q : Char} {i start : ℕ} {b : UInt8} {bytes : ByteArray}

/-! ### The cursors -/

lemma advances_closingRound (bytes : ByteArray) (quote : UInt8) :
    Advances (closingRound bytes quote) id bytes.size := by
  intro i j hround
  rw [closingRound] at hround
  split at hround
  · cases hround
  case h_2 hb =>
    refine ⟨(getElem?_eq_some_iff.1 hb).1, ?_⟩
    split_ifs at hround <;> cases hround
    · exact Nat.lt_add_of_pos_right Nat.two_pos
    · exact Nat.lt_succ_self i

lemma advances_lineEndRound (bytes : ByteArray) :
    Advances (lineEndRound bytes) id bytes.size := by
  intro i j hround
  rw [lineEndRound] at hround
  split at hround
  · cases hround
  case h_2 hb =>
    refine ⟨(getElem?_eq_some_iff.1 hb).1, ?_⟩
    split_ifs at hround <;> cases hround
    all_goals exact Nat.lt_add_of_pos_right (by decide)

lemma closingRound_ne_fail (bytes : ByteArray) (quote : UInt8) (i : ℕ) :
    closingRound bytes quote i ≠ .fail := by
  rw [closingRound]
  split
  · simp
  · split_ifs <;> simp

lemma lineEndRound_ne_fail (bytes : ByteArray) (i : ℕ) : lineEndRound bytes i ≠ .fail := by
  rw [lineEndRound]
  split
  · simp
  · split_ifs <;> simp

/-- A quoted span ends behind the offset from where its end is looked for. -/
lemma lt_of_loop_closingRound {quote : UInt8} {close : Option ℕ}
    (h : loop (closingRound bytes quote) i = some close) : ∀ j ∈ close, i < j := by
  refine (advances_closingRound bytes quote).of_loop (P := fun i close => ∀ j ∈ close, i < j)
    (fun i close hround => ?_) (fun i k close hik hlater j hj => Nat.lt_trans hik (hlater j hj)) h
  rw [closingRound] at hround
  split at hround
  · cases hround
    exact fun j hj => nomatch hj
  · split_ifs at hround
    cases hround
    rintro j ⟨⟩
    exact Nat.lt_succ_self i

/-- A line comment ends no earlier than where its end is looked for, unless this is behind the
end of the text. -/
lemma le_of_loop_lineEndRound {j : ℕ} (h : loop (lineEndRound bytes) i = some j) :
    i ≤ j ∨ j = bytes.size := by
  refine (advances_lineEndRound bytes).of_loop (P := fun i j => i ≤ j ∨ j = bytes.size)
    (fun i j hround => ?_) (fun i k j hik => Or.imp_left (Nat.le_trans (Nat.le_of_lt hik))) h
  rw [lineEndRound] at hround
  split at hround
  · cases hround
    exact .inr rfl
  · split_ifs at hround <;> cases hround
    · exact .inl (Nat.le_refl i)
    · exact .inl (Nat.le_refl i)

/-- Every spot is followed by a later one. -/
lemma lt_of_spotAt? {text : String} {spot : Spot} (h : spotAt? text bytes i = some spot) :
    i < spot.next := by
  rw [spotAt?] at h
  split at h
  · cases h
  case h_2 b hb =>
    split_ifs at h with hquote hblock hline
    · obtain ⟨close, hclose, rfl⟩ := Option.map_eq_some_iff.1 h
      rw [closingAt?, hb] at hclose
      cases close with
      | none => exact Nat.lt_succ_self i
      | some j => exact Nat.lt_of_succ_lt (lt_of_loop_closingRound hclose j rfl)
    · obtain ⟨close, hclose, rfl⟩ := Option.map_eq_some_iff.1 h
      obtain ⟨inner, -, rfl⟩ := Option.map_eq_some_iff.1 hclose
      cases inner.find? "*/" with
      | none => exact Nat.lt_succ_self i
      | some pos =>
          show i < i + 2 + pos.offset.byteIdx + 2
          omega
    · obtain ⟨j, hj, rfl⟩ := Option.map_eq_some_iff.1 h
      show i < j
      have hsize := (getElem?_eq_some_iff.1 hline.2).1
      rcases le_of_loop_lineEndRound hj with hle | rfl
      · exact Nat.lt_of_lt_of_le (Nat.lt_add_of_pos_right Nat.two_pos) hle
      · exact Nat.lt_of_succ_lt hsize
    · cases h
      exact Nat.lt_succ_self i

/-! ### Quoted spans -/

section Closing

variable (hq : q.toNat < 0x80)

include hq

lemma closingRound_cons (h : StartsAt s i (c :: rest)) :
    closingRound (String.ofList s).toUTF8 q.toUInt8 i =
      if c = '\\' then .goOn (i + 2) else if c = q then .stop (some (i + 1))
        else .goOn (i + 1) := by
  obtain ⟨b, hb, htest⟩ := h.exists_byte
  rw [closingRound, hb]
  simp only [htest '\\' (by decide), htest q hq]

lemma closingRound_inside (hb : bytes[i]? = some b) (hle : 0x80 ≤ b.toNat) :
    closingRound bytes q.toUInt8 i = .goOn (i + 1) := by
  rw [closingRound, hb]
  simp only [ne_toUInt8 (q := '\\') (by decide) hle, ne_toUInt8 hq hle, if_false]

omit hq in
lemma closingRound_nil (h : StartsAt s i []) (quote : UInt8) (k : ℕ) :
    closingRound (String.ofList s).toUTF8 quote (i + k) = .stop none := by
  rw [closingRound, h.getElem?]
  rfl

lemma loop_closingRound_next (h : StartsAt s i (c :: rest)) :
    loop (closingRound (String.ofList s).toUTF8 q.toUInt8) (i + 1) =
      loop (closingRound (String.ofList s).toUTF8 q.toUInt8) (i + c.utf8Size) :=
  h.loop_next (advances_closingRound _ _) id fun _ _ hb hle => closingRound_inside hq hb hle

/-- The quote that closes a quoted span is found by bytes where it is found by characters. -/
lemma loop_closingRound (h : StartsAt s i v) :
    loop (closingRound (String.ofList s).toUTF8 q.toUInt8) i =
      some ((closing? q v 0).map (behind i v)) := by
  have hloop := advances_closingRound (String.ofList s).toUTF8 q.toUInt8
  -- The induction follows the search by characters, whatever it has counted.
  have n : ℕ := 0
  induction v, n using closing?.induct q generalizing i with
  | case1 => exact hloop.loop_stop (closingRound_nil h _ 0)
  | case2 =>
      have hround := (closingRound_cons hq h).trans (if_pos rfl)
      have hlast : closingRound _ q.toUInt8 (i + 2) = _ := closingRound_nil h.tail _ 1
      rw [hloop.loop_goOn hround, hloop.loop_stop hlast]
      rfl
  | case3 n d rest ih =>
      have hround := (closingRound_cons hq h).trans (if_pos rfl)
      have hnext : loop _ (i + 2) = _ := loop_closingRound_next hq h.tail
      rw [hloop.loop_goOn hround, hnext, closing?_escape, closing?_succ, closing?_succ]
      refine (ih h.tail.tail).trans ?_
      simp only [Option.map_map, Function.comp_def, behind_succ]
  | case4 n rest hlast hescape =>
      have hbackslash := ne_backslash hlast hescape
      have hround := (closingRound_cons hq h).trans ((if_neg hbackslash).trans (if_pos rfl))
      rw [hloop.loop_stop hround, closing?_quote hbackslash, Option.map_some, behind_succ,
        behind_zero, utf8Size_of_lt hq]
  | case5 n c rest hlast hescape hquote ih =>
      have hbackslash := ne_backslash hlast hescape
      have hround := (closingRound_cons hq h).trans ((if_neg hbackslash).trans (if_neg hquote))
      rw [hloop.loop_goOn hround, loop_closingRound_next hq h, ih h.tail,
        closing?_ordinary (by simp [hquote, hbackslash]), closing?_succ]
      simp only [Option.map_map, Function.comp_def, behind_succ]

end Closing

/-- A quoted span ends by bytes where it ends by characters. -/
lemma closingAt?_eq (hc : c.toNat < 0x80) (h : StartsAt s i (c :: rest)) :
    closingAt? (String.ofList s).toUTF8 i =
      some ((closing? c rest 0).map fun n => behind i (c :: rest) (n + 1)) := by
  rw [closingAt?, h.getElem?_head hc]
  refine (loop_closingRound_next hc h).trans ?_
  rw [loop_closingRound hc h.tail]
  simp only [behind_succ]

/-! ### Line comments -/

/-- A round that goes on with the next byte. -/
lemma lineEndRound_ordinary (h : StartsAt s i (c :: rest)) (hfeed : c ≠ '\n')
    (hbreak : c = '\\' ∨ c = '\r' → ∀ tail, rest ≠ '\n' :: tail)
    (hreturn : c = '\\' → ∀ tail, rest ≠ '\r' :: '\n' :: tail) :
    lineEndRound (String.ofList s).toUTF8 i = .goOn (i + 1) := by
  obtain ⟨b, hb, htest⟩ := h.exists_byte
  rw [lineEndRound, hb]
  simp only [htest '\\' (by decide), htest '\n' (by decide), htest '\r' (by decide)]
  by_cases hbackslash : c = '\\'
  · subst hbackslash
    rw [if_pos rfl, if_neg, if_neg]
    · intro hnext
      obtain ⟨tail, htail⟩ := h.tail.exists_cons (by decide) hnext
      exact hbreak (.inl rfl) tail htail
    · rintro ⟨hnext, hsecond⟩
      obtain ⟨tail, rfl⟩ := h.tail.exists_cons (by decide) hnext
      obtain ⟨tail, rfl⟩ := h.tail.tail.exists_cons (by decide) hsecond
      exact hreturn rfl tail rfl
  · rw [if_neg hbackslash, if_neg hfeed, if_neg]
    rintro ⟨rfl, hnext⟩
    obtain ⟨tail, htail⟩ := h.tail.exists_cons (by decide) hnext
    exact hbreak (.inr rfl) tail htail

lemma lineEndRound_inside (hb : bytes[i]? = some b) (hle : 0x80 ≤ b.toNat) :
    lineEndRound bytes i = .goOn (i + 1) := by
  rw [lineEndRound, hb]
  simp only [ne_toUInt8 (q := '\\') (by decide) hle, ne_toUInt8 (q := '\n') (by decide) hle,
    ne_toUInt8 (q := '\r') (by decide) hle, if_false, false_and]

/-- A line comment ends by bytes where it ends by characters. -/
lemma loop_lineEndRound (h : StartsAt s i v) :
    loop (lineEndRound (String.ofList s).toUTF8) i = some (behind i v (lineEnd v 0)) := by
  have hloop := advances_lineEndRound (String.ofList s).toUTF8
  have n : ℕ := 0
  induction v, n using lineEnd.induct generalizing i with
  | case1 =>
      have hround : lineEndRound (String.ofList s).toUTF8 i =
          .stop (String.ofList s).toUTF8.size := by
        rw [lineEndRound, h.getElem?_nil]
      rw [hloop.loop_stop hround, size_toUTF8, ← h.add_utf8Length]
      rfl
  | case2 n rest ih =>
      have hround : lineEndRound (String.ofList s).toUTF8 i = .goOn (i + 3) := by
        rw [lineEndRound, h.getElem?_head (by decide)]
        exact (if_pos rfl).trans
          (if_pos ⟨h.tail.getElem?_head (by decide), h.tail.tail.getElem?_head (by decide)⟩)
      rw [hloop.loop_goOn hround, lineEnd, lineEnd_eq, behind_succ, behind_succ, behind_succ]
      exact ih h.tail.tail.tail
  | case3 n rest ih =>
      have hround : lineEndRound (String.ofList s).toUTF8 i = .goOn (i + 2) := by
        have hnext := h.tail.getElem?_head (by decide)
        rw [lineEndRound, h.getElem?_head (by decide)]
        refine (if_pos rfl).trans ((if_neg ?_).trans (if_pos hnext))
        rintro ⟨hreturn, -⟩
        obtain ⟨_, htail⟩ := h.tail.exists_cons (by decide) hreturn
        cases htail
      rw [hloop.loop_goOn hround, lineEnd, lineEnd_eq, behind_succ, behind_succ]
      exact ih h.tail.tail
  | case4 n rest =>
      have hround : lineEndRound (String.ofList s).toUTF8 i = .stop i := by
        rw [lineEndRound, h.getElem?_head (by decide)]
        rfl
      rw [hloop.loop_stop hround]
      rfl
  | case5 n rest =>
      have hround : lineEndRound (String.ofList s).toUTF8 i = .stop i := by
        have hnext := h.tail.getElem?_head (by decide)
        rw [lineEndRound, h.getElem?_head (by decide)]
        exact (if_neg (by decide)).trans ((if_neg (by decide)).trans (if_pos ⟨rfl, hnext⟩))
      rw [hloop.loop_stop hround]
      rfl
  | case6 n c rest hreturn hfeed hnotFeed hnotReturn ih =>
      have hround := lineEndRound_ordinary h hnotFeed
        (fun hc tail htail => hc.elim (hfeed tail · htail) (hnotReturn tail · htail))
        (fun hc tail htail => hreturn tail hc htail)
      have hnext := h.loop_next hloop id fun _ _ hb hle => lineEndRound_inside hb hle
      rw [hloop.loop_goOn hround, lineEnd.eq_6 _ _ _ hreturn hfeed hnotFeed hnotReturn, lineEnd_eq,
        behind_succ]
      exact hnext.trans (ih h.tail)

lemma lineEndAt?_eq (h : StartsAt s i ('/' :: '/' :: rest)) :
    lineEndAt? (String.ofList s).toUTF8 i =
      some (behind i ('/' :: '/' :: rest) (lineEnd rest 0 + 2)) := by
  rw [behind_succ, behind_succ]
  exact loop_lineEndRound h.tail.tail

/-! ### Block comments -/

/-- The first closing marker ends a block comment. -/
lemma blockEnd?_of_first {u : Text} (h : First ['*', '/'] u v) (n : ℕ) :
    blockEnd? v n = some (n + u.length + 2) := by
  induction h generalizing n with
  | here v => rfl
  | @later c u v hnot h ih =>
      have hnext : blockEnd? (c :: v) n = blockEnd? v (n + 1) := by
        refine blockEnd?.eq_3 _ _ _ ?_
        rintro tail rfl rfl
        exact hnot ⟨tail, rfl⟩
      rw [hnext, ih, List.length_cons]
      congr 1
      omega

/-- Without a closing marker a block comment does not end. -/
lemma blockEnd?_of_absent (h : ¬['*', '/'] <:+: v) (n : ℕ) : blockEnd? v n = none := by
  induction v generalizing n with
  | nil => rfl
  | cons c v ih =>
      have hnext : blockEnd? (c :: v) n = blockEnd? v (n + 1) := by
        refine blockEnd?.eq_3 _ _ _ ?_
        rintro tail rfl rfl
        exact h ⟨[], tail, rfl⟩
      rw [hnext]
      exact ih (fun hinfix => h (List.infix_cons hinfix)) _

/-- A block comment ends by bytes where it ends by characters. -/
lemma blockEndAt?_eq (h : StartsAt s i ('/' :: '*' :: rest)) :
    blockEndAt? (String.ofList s) i =
      some ((blockEnd? rest 0).map fun n => behind i ('/' :: '*' :: rest) (n + 2)) := by
  have hslice : slice? (String.ofList s) (i + 2) _ = _ := slice?_last h.tail.tail
  rw [blockEndAt?, hslice, Option.map_some, Option.some_inj]
  cases hfind : (String.ofList rest).find? "*/" with
  | none =>
      have hnone := find?_eq_none (p := ['*', '/']).1 hfind
      rw [blockEnd?_of_absent hnone]
      rfl
  | some pos =>
      obtain ⟨u, hfirst, hpos⟩ := exists_first (p := ['*', '/']) (by decide) hfind
      obtain ⟨w, hw⟩ := hfirst.exists_append
      have htake : rest.take (0 + u.length + 2) = u ++ ['*', '/'] := by
        rw [hw]
        exact List.take_left' (by simp)
      rw [blockEnd?_of_first hfirst, Option.map_some, Option.map_some, Option.some_inj, hpos,
        behind_succ, behind_succ, behind, htake, utf8Length_append, Nat.add_assoc (i + 2)]
      rfl

/-! ### The removal of comments -/

lemma spotAt?_inside {text : String} (hb : bytes[i]? = some b) (hle : 0x80 ≤ b.toNat) :
    spotAt? text bytes i = some (.keep (i + 1)) := by
  rw [spotAt?, hb]
  simp only [ne_toUInt8 (q := '"') (by decide) hle, ne_toUInt8 (q := '\'') (by decide) hle,
    ne_toUInt8 (q := '/') (by decide) hle, or_self, if_false, false_and]

/-- A quoted span stays, and a quote that is never closed stays alone. -/
lemma does_quote (hc : c = '"' ∨ c = '\'') (h : StartsAt s i (c :: rest)) :
    Does (spotAt? (String.ofList s) (String.ofList s).toUTF8) [' '] i c rest
      (pieceAt c rest).1.kept (pieceAt c rest).2 := by
  have hascii : c.toNat < 0x80 := by rcases hc with rfl | rfl <;> decide
  have hspot : spotAt? (String.ofList s) (String.ofList s).toUTF8 i =
      (closingAt? (String.ofList s).toUTF8 i).map fun close => .keep (close.getD (i + 1)) := by
    rw [spotAt?, h.getElem?_head hascii]
    exact if_pos (hc.imp (congrArg Char.toUInt8) (congrArg Char.toUInt8))
  rw [closingAt?_eq hascii h] at hspot
  cases hclosing : closing? c rest 0 with
  | none =>
      rw [hclosing] at hspot
      simp only [pieceAt, if_pos hc, hclosing]
      exact .code hspot
  | some n =>
      rw [hclosing] at hspot
      simp only [pieceAt, if_pos hc, hclosing]
      exact .keep n hspot

lemma spotAt?_slash (h : StartsAt s i ('/' :: rest)) :
    spotAt? (String.ofList s) (String.ofList s).toUTF8 i =
      if rest.head? = some '*' then
        (blockEndAt? (String.ofList s) i).map fun close => close.elim (.keep (i + 1)) .cut
      else if rest.head? = some '/' then (lineEndAt? (String.ofList s).toUTF8 i).map .cut
      else some (.keep (i + 1)) := by
  have hstar := h.tail.getElem?_eq_some_iff (q := '*') (by decide)
  have hslash := h.tail.getElem?_eq_some_iff (q := '/') (by decide)
  rw [spotAt?, h.getElem?_head (by decide)]
  refine (if_neg (by decide)).trans ?_
  simp only [true_and]
  exact if_congr hstar rfl (if_congr hslash rfl rfl)

/-- A comment is cut out, and any other slash stays. -/
lemma does_slash (h : StartsAt s i ('/' :: rest)) :
    Does (spotAt? (String.ofList s) (String.ofList s).toUTF8) [' '] i '/' rest
      (pieceAt '/' rest).1.kept (pieceAt '/' rest).2 := by
  have hspot := spotAt?_slash h
  have hquote : ¬('/' = '"' ∨ '/' = '\'') := by decide
  by_cases hstar : rest.head? = some '*'
  · obtain ⟨inner, rfl⟩ := List.head?_eq_some_iff.1 hstar
    rw [if_pos hstar, blockEndAt?_eq h] at hspot
    cases hblock : blockEnd? inner 0 with
    | none =>
        rw [hblock] at hspot
        simp only [pieceAt, if_neg hquote, if_true, hblock]
        exact .code hspot
    | some n =>
        rw [hblock] at hspot
        simp only [pieceAt, if_neg hquote, if_true, hblock]
        exact .cut (n + 1) hspot
  rw [if_neg hstar] at hspot
  by_cases hslash : rest.head? = some '/'
  · obtain ⟨inner, rfl⟩ := List.head?_eq_some_iff.1 hslash
    rw [if_pos hslash, lineEndAt?_eq h] at hspot
    simp only [pieceAt, if_neg hquote, if_true]
    exact .cut (lineEnd inner 0 + 1) hspot
  rw [if_neg hslash] at hspot
  have hpiece : pieceAt '/' rest = (.code '/', 0) := by
    rw [List.head?_eq_some_iff] at hstar hslash
    simp only [pieceAt, if_neg hquote, if_true]
    split
    · exact absurd ⟨_, rfl⟩ hstar
    · exact absurd ⟨_, rfl⟩ hslash
    · rfl
  rw [hpiece]
  exact .code hspot

/-- **The removal of comments by bytes follows the pieces of the text.** -/
lemma follows_pieces (s : Text) :
    Follows (spotAt? (String.ofList s) (String.ofList s).toUTF8) [' '] pieceAt Piece.kept s where
  lt_next := fun _ _ => lt_of_spotAt?
  inside := fun _ _ hb hle => spotAt?_inside hb hle
  does := fun i c rest h => by
    by_cases hquote : c = '"' ∨ c = '\''
    · exact does_quote hquote h
    by_cases hslash : c = '/'
    · subst hslash
      exact does_slash h
    obtain ⟨b, hb, htest⟩ := h.exists_byte
    have hspot : spotAt? (String.ofList s) (String.ofList s).toUTF8 i = some (.keep (i + 1)) := by
      rw [spotAt?, hb]
      simp only [htest '"' (by decide), htest '\'' (by decide), htest '/' (by decide), hquote,
        hslash, if_false, false_and]
    rw [pieceAt_ordinary hquote hslash]
    exact .code hspot

/-- **Comments are removed by bytes as they are by characters.** -/
theorem stripByBytes?_eq (s : Text) :
    stripByBytes? (String.ofList s) = some (String.ofList (stripByScan s)) :=
  loop_pass (follows_pieces s)

end CallCensus.Comment
