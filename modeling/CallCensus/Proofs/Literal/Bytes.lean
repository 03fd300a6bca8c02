import CallCensus.Literal.Bytes
import CallCensus.Proofs.Literal.Agreement
import CallCensus.Proofs.Text.Pass

/-!
Literals found by bytes and by characters.

* `closingAt?_eq`: a literal ends behind the same character;
* `follows_pieces`, `stripByBytes?_eq`: the removal by bytes follows the pieces of the text;
* `advances_closingRound`, `lt_of_spotAt?`: the cursors move on.
-/

namespace CallCensus.Literal

open Text Utf8

variable {s v rest : Text} {c d q : Char} {i : ℕ} {b : UInt8} {bytes : ByteArray}

/-! ### The cursors -/

lemma advances_closingRound (bytes : ByteArray) (quote : UInt8) :
    Advances (closingRound bytes quote) id bytes.size := by
  intro i j hround
  rw [closingRound] at hround
  split at hround
  · cases hround
  case h_2 hb =>
    refine ⟨(getElem?_eq_some_iff.1 hb).1, ?_⟩
    split_ifs at hround <;> cases hround
    · exact Nat.lt_add_of_pos_right Nat.two_pos
    · exact Nat.lt_succ_self i

lemma closingRound_ne_fail (bytes : ByteArray) (quote : UInt8) (i : ℕ) :
    closingRound bytes quote i ≠ .fail := by
  rw [closingRound]
  split
  · simp
  · split_ifs <;> simp

/-- A literal ends behind the offset from where its end is looked for. -/
lemma lt_of_loop_closingRound {quote : UInt8} {close : Option ℕ}
    (h : loop (closingRound bytes quote) i = some close) : ∀ j ∈ close, i < j := by
  refine (advances_closingRound bytes quote).of_loop (P := fun i close => ∀ j ∈ close, i < j)
    (fun i close hround => ?_) (fun i k close hik hlater j hj => Nat.lt_trans hik (hlater j hj)) h
  rw [closingRound] at hround
  split at hround
  · cases hround
    exact fun j hj => nomatch hj
  · split_ifs at hround <;> cases hround
    · rintro j ⟨⟩
      exact Nat.lt_succ_self i
    all_goals exact fun j hj => nomatch hj

/-- Every spot is followed by a later one. -/
lemma lt_of_spotAt? {spot : Spot} (h : spotAt? bytes i = some spot) : i < spot.next := by
  rw [spotAt?] at h
  split at h
  · cases h
  case h_2 b hb =>
    split_ifs at h with hquote
    · obtain ⟨close, hclose, rfl⟩ := Option.map_eq_some_iff.1 h
      rw [closingAt?, hb] at hclose
      cases close with
      | none => exact Nat.lt_succ_self i
      | some j => exact Nat.lt_of_succ_lt (lt_of_loop_closingRound hclose j rfl)
    · cases h
      exact Nat.lt_succ_self i

/-! ### The end of a literal -/

section Closing

variable (hq : q.toNat < 0x80)

include hq

/-- A round is decided by the next character, and after a backslash by the one after it. -/
lemma closingRound_cons (h : StartsAt s i (c :: rest)) :
    closingRound (String.ofList s).toUTF8 q.toUInt8 i =
      if c = q then .stop (some (i + 1)) else if c = '\n' then .stop none
        else if c = '\\' then
          if rest = [] ∨ rest.head? = some '\n' then .stop none else .goOn (i + 2)
        else .goOn (i + 1) := by
  obtain ⟨b, hb, htest⟩ := h.exists_byte
  rw [closingRound, hb]
  simp only [htest q hq, htest '\n' (by decide), htest '\\' (by decide)]
  refine if_congr Iff.rfl rfl (if_congr Iff.rfl rfl ?_)
  by_cases hbackslash : c = '\\'
  · subst hbackslash
    rw [if_pos rfl, if_pos rfl]
    have hfeed := h.tail.getElem?_eq_some_iff (q := '\n') (by decide)
    exact if_congr (or_congr h.tail.getElem?_eq_none_iff hfeed) rfl rfl
  · rw [if_neg hbackslash, if_neg hbackslash]

lemma closingRound_inside (hb : bytes[i]? = some b) (hle : 0x80 ≤ b.toNat) :
    closingRound bytes q.toUInt8 i = .goOn (i + 1) := by
  rw [closingRound, hb]
  simp only [ne_toUInt8 hq hle, ne_toUInt8 (q := '\n') (by decide) hle,
    ne_toUInt8 (q := '\\') (by decide) hle, if_false]

lemma loop_closingRound_next (h : StartsAt s i (c :: rest)) :
    loop (closingRound (String.ofList s).toUTF8 q.toUInt8) (i + 1) =
      loop (closingRound (String.ofList s).toUTF8 q.toUInt8) (i + c.utf8Size) :=
  h.loop_next (advances_closingRound _ _) id fun _ _ hb hle => closingRound_inside hq hb hle

/-- The quote that closes a literal is found by bytes where it is found by characters. -/
lemma loop_closingRound (h : StartsAt s i v) :
    loop (closingRound (String.ofList s).toUTF8 q.toUInt8) i =
      some ((closing? q v 0).map (behind i v)) := by
  have hloop := advances_closingRound (String.ofList s).toUTF8 q.toUInt8
  -- The induction follows the search by characters, whatever it has counted.
  have n : ℕ := 0
  induction v, n using closing?.induct q generalizing i with
  | case1 =>
      have hround : closingRound (String.ofList s).toUTF8 q.toUInt8 i = .stop none := by
        rw [closingRound, h.getElem?_nil]
      exact hloop.loop_stop hround
  | case2 rest n =>
      have hround := (closingRound_cons hq h).trans (if_pos rfl)
      rw [hloop.loop_stop hround, closing?_quote, Option.map_some, behind_succ, behind_zero,
        utf8Size_of_lt hq]
  | case3 rest n hquote =>
      have hround := (closingRound_cons hq h).trans ((if_neg hquote).trans (if_pos rfl))
      rw [hloop.loop_stop hround, closing?_newline hquote]
      rfl
  | case4 n hquote hfeed =>
      have hround := (closingRound_cons hq h).trans ((if_neg hquote).trans
        ((if_neg hfeed).trans ((if_pos rfl).trans (if_pos (.inl rfl)))))
      rw [hloop.loop_stop hround]
      simp [closing?, hquote]
  | case5 n rest hquote hfeed =>
      have hround := (closingRound_cons hq h).trans ((if_neg hquote).trans
        ((if_neg hfeed).trans ((if_pos rfl).trans (if_pos (.inr rfl)))))
      rw [hloop.loop_stop hround]
      simp [closing?, hquote]
  | case6 n d rest hd hquote hfeed ih =>
      have hround := (closingRound_cons hq h).trans ((if_neg hquote).trans
        ((if_neg hfeed).trans ((if_pos rfl).trans (if_neg (by simpa using hd)))))
      have hnext : loop _ (i + 2) = _ := loop_closingRound_next hq h.tail
      rw [hloop.loop_goOn hround, hnext, closing?_backslash hquote hd, closing?_succ, closing?_succ]
      refine (ih h.tail.tail).trans ?_
      simp only [Option.map_map, Function.comp_def, behind_succ]
  | case7 c rest n hquote hfeed hbackslash ih =>
      have hround := (closingRound_cons hq h).trans ((if_neg hquote).trans
        ((if_neg hfeed).trans (if_neg hbackslash)))
      rw [hloop.loop_goOn hround, loop_closingRound_next hq h, ih h.tail,
        closing?_cons hquote hfeed hbackslash, closing?_succ]
      simp only [Option.map_map, Function.comp_def, behind_succ]

lemma closingAt?_eq (h : StartsAt s i (q :: rest)) :
    closingAt? (String.ofList s).toUTF8 i =
      some ((closing? q rest 0).map fun n => behind i (q :: rest) (n + 1)) := by
  rw [closingAt?, h.getElem?_head hq]
  refine (loop_closingRound_next hq h).trans ?_
  rw [loop_closingRound hq h.tail]
  simp only [behind_succ]

end Closing

/-! ### The removal of literals -/

lemma isQuote_iff : isQuote c = true ↔ c = '"' ∨ c = '\'' ∨ c = backquote := by
  simp [isQuote, or_assoc]

/-- **The removal of literals by bytes follows the pieces of the text.** -/
lemma follows_pieces (s : Text) :
    Follows (spotAt? (String.ofList s).toUTF8) [] pieceAt Piece.kept s where
  lt_next := fun _ _ => lt_of_spotAt?
  inside := fun i b hb hle => by
    rw [spotAt?, hb]
    simp only [ne_toUInt8 (q := '"') (by decide) hle, ne_toUInt8 (q := '\'') (by decide) hle,
      ne_toUInt8 (q := backquote) (by decide) hle, or_self, if_false]
  does := fun i c rest h => by
    obtain ⟨b, hb, htest⟩ := h.exists_byte
    have hspot : spotAt? (String.ofList s).toUTF8 i = if isQuote c then
        (closingAt? (String.ofList s).toUTF8 i).map fun close => close.elim (.keep (i + 1)) .cut
          else some (.keep (i + 1)) := by
      rw [spotAt?, hb]
      simp only [htest '"' (by decide), htest '\'' (by decide), htest backquote (by decide),
        isQuote_iff]
    by_cases hquote : isQuote c = true
    · have hascii : c.toNat < 0x80 := by
        rcases isQuote_iff.1 hquote with rfl | rfl | rfl <;> decide
      rw [if_pos hquote, closingAt?_eq hascii h] at hspot
      cases hclosing : closing? c rest 0 with
      | none =>
          rw [hclosing] at hspot
          simp only [pieceAt, if_pos hquote, hclosing]
          exact .code hspot
      | some n =>
          rw [hclosing] at hspot
          simp only [pieceAt, if_pos hquote, hclosing]
          exact .cut n hspot
    · rw [if_neg hquote] at hspot
      rw [pieceAt, if_neg hquote]
      exact .code hspot

/-- **Literals are removed by bytes as they are by characters.** -/
theorem stripByBytes?_eq (s : Text) :
    stripByBytes? (String.ofList s) = some (String.ofList (stripByScan s)) :=
  loop_pass (follows_pieces s)

end CallCensus.Literal
