import CallCensus.Proofs.Text.Offsets
import CallCensus.Text.Pieces

/-!
A pass over a text by its bytes.

Where the pass does at the start of every piece what becomes of the piece, it leaves what is left of
the pieces: it keeps a piece, it cuts one out and leaves the mark, or it looks at the next byte, of
which the bytes inside a character are no piece. The invariant is that the text up to the last cut
has been settled, that the text from there to the cursor stays, and that pieces start at both.

* `advances_pass`: the cursor of a pass moves on;
* `Does`, `Follows`: what a pass does with a piece, and with the pieces of a text;
* `loop_pass`: what the pass leaves.
-/

namespace CallCensus.Text

open Utf8

variable {β : Type} {s u v rest mark : Text} {c : Char} {i last : ℕ} {out : String}
  {spotAt? : ℕ → Option Spot} {step : Char → Text → β × ℕ} {kept : β → Text}

/-- Where a pass goes on. -/
def Spot.next : Spot → ℕ
  | keep next => next
  | cut next => next

/-- The cursor of a pass moves on if every spot is followed by a later one. -/
lemma advances_pass {text mark : String} (h : ∀ i spot, spotAt? i = some spot → i < spot.next) :
    Advances (Pass.round text mark spotAt?) Pass.cursor text.utf8ByteSize := by
  intro p next hround
  rw [Pass.round] at hround
  split at hround
  case isTrue hlt =>
    refine ⟨hlt, ?_⟩
    split at hround
    · cases hround
    case h_2 hspot =>
      cases hround
      exact h _ _ hspot
    case h_3 hspot =>
      split at hround
      · cases hround
      · cases hround
        exact h _ _ hspot
  case isFalse =>
    split at hround <;> cases hround

/-- What a pass does at the offset `i`, where the text goes on with `c` and `rest`: what stays of
the next piece, and how many characters it takes after the first. -/
inductive Does (spotAt? : ℕ → Option Spot) (mark : Text) (i : ℕ) (c : Char) (rest : Text) :
    Text → ℕ → Prop
  /-- It goes on with the next byte. -/
  | code (h : spotAt? i = some (.keep (i + 1))) : Does spotAt? mark i c rest [c] 0
  /-- It goes on behind the piece. -/
  | keep (n : ℕ) (h : spotAt? i = some (.keep (behind i (c :: rest) (n + 1)))) :
      Does spotAt? mark i c rest (c :: rest.take n) n
  /-- It cuts the piece out. -/
  | cut (n : ℕ) (h : spotAt? i = some (.cut (behind i (c :: rest) (n + 1)))) :
      Does spotAt? mark i c rest mark n

/-- A pass follows the pieces of a text: it always moves on, inside a character it goes on with the
next byte, and where a piece starts it does what becomes of the piece. -/
structure Follows (spotAt? : ℕ → Option Spot) (mark : Text) (step : Char → Text → β × ℕ)
    (kept : β → Text) (s : Text) : Prop where
  lt_next : ∀ i spot, spotAt? i = some spot → i < spot.next
  inside : ∀ i b, (String.ofList s).toUTF8[i]? = some b → 0x80 ≤ b.toNat →
    spotAt? i = some (.keep (i + 1))
  does : ∀ i c rest, StartsAt s i (c :: rest) →
    Does spotAt? mark i c rest (kept (step c rest).1) (step c rest).2

lemma round_keep {next : ℕ} (hi : i < utf8Length s) (h : spotAt? i = some (.keep next)) :
    Pass.round (String.ofList s) (String.ofList mark) spotAt? ⟨out, last, i⟩ =
      .goOn ⟨out, last, next⟩ := by
  rw [Pass.round, if_pos (by rwa [utf8ByteSize_ofList]), h]

lemma Follows.advances (h : Follows spotAt? mark step kept s) :
    Advances (Pass.round (String.ofList s) (String.ofList mark) spotAt?) Pass.cursor
      (String.ofList s).utf8ByteSize :=
  advances_pass h.lt_next

lemma loop_code (hfollows : Follows spotAt? mark step kept s) (hi : StartsAt s i (c :: rest))
    (h : spotAt? i = some (.keep (i + 1))) :
    loop (Pass.round (String.ofList s) (String.ofList mark) spotAt?) ⟨out, last, i⟩ =
      loop (Pass.round (String.ofList s) (String.ofList mark) spotAt?)
        ⟨out, last, i + c.utf8Size⟩ := by
  have hadvances := hfollows.advances
  rw [hadvances.loop_goOn (round_keep hi.lt h)]
  exact hi.loop_next hadvances (Pass.mk out last) fun i b hb hle =>
    round_keep (lt_of_getElem?_toUTF8 hb) (hfollows.inside i b hb hle)

/-- Where a piece goes, the text before it and the mark are what is left. -/
lemma round_cut {next : ℕ} (hlast : StartsAt s last (u ++ c :: rest))
    (h : spotAt? (last + utf8Length u) = some (.cut next)) :
    Pass.round (String.ofList s) (String.ofList mark) spotAt? ⟨out, last, last + utf8Length u⟩ =
      .goOn ⟨out ++ String.ofList u ++ String.ofList mark, next, next⟩ := by
  have hlt : last + utf8Length u < (String.ofList s).utf8ByteSize := by
    rw [utf8ByteSize_ofList]
    exact hlast.append.lt
  rw [Pass.round, if_pos hlt, h]
  simp only [slice?_eq_some hlast]

lemma round_end (hlast : StartsAt s last u) :
    Pass.round (String.ofList s) (String.ofList mark) spotAt? ⟨out, last, last + utf8Length u⟩ =
      .stop (out ++ String.ofList u) := by
  have hend : ¬last + utf8Length u < (String.ofList s).utf8ByteSize := by
    rw [utf8ByteSize_ofList, hlast.add_utf8Length]
    exact Nat.lt_irrefl _
  rw [Pass.round, if_neg hend]
  simp only [slice?_last hlast]

/-- What a pass leaves that has come to a place where a piece starts. -/
lemma loop_round (hfollows : Follows spotAt? mark step kept s) (hlast : StartsAt s last (u ++ v)) :
    loop (Pass.round (String.ofList s) (String.ofList mark) spotAt?)
        ⟨out, last, last + utf8Length u⟩ =
      some (out ++ String.ofList (u ++ (pieces step v).flatMap kept)) := by
  have hadvances := hfollows.advances
  induction hn : v.length using Nat.strongRecOn generalizing u v last out with
  | ind n ih =>
      cases v with
      | nil =>
          rw [List.append_nil] at hlast
          rw [hadvances.loop_stop (round_end hlast), pieces_nil, List.flatMap_nil,
            List.append_nil]
      | cons c rest =>
          have hless : ∀ k, (rest.drop k).length < n := fun k => hn ▸ length_drop_lt c rest k
          have hpiece := hfollows.does _ c rest hlast.append
          rw [pieces_cons, List.flatMap_cons]
          generalize kept (step c rest).1 = piece, (step c rest).2 = k at hpiece
          cases hpiece with
          | code h =>
              have hstart : StartsAt s last ((u ++ [c]) ++ rest) := by
                rwa [List.append_cons] at hlast
              have hcursor : last + utf8Length u + c.utf8Size = last + utf8Length (u ++ [c]) := by
                rw [utf8Length_append, utf8Length_singleton, Nat.add_assoc]
              rw [loop_code hfollows hlast.append h, hcursor, ih _ (hless 0) hstart rfl,
                List.append_assoc]
              rfl
          | keep _ h =>
              have hstart : StartsAt s last ((u ++ c :: rest.take k) ++ rest.drop k) := by
                rwa [List.append_assoc, List.cons_append, List.take_append_drop]
              have hcursor : behind (last + utf8Length u) (c :: rest) (k + 1) =
                  last + utf8Length (u ++ c :: rest.take k) := by
                rw [behind, List.take_succ_cons, utf8Length_append, Nat.add_assoc]
              rw [hadvances.loop_goOn (round_keep hlast.append.lt h), hcursor,
                ih _ (hless k) hstart rfl, List.append_assoc]
          | cut _ h =>
              have hstart : StartsAt s _ ([] ++ rest.drop k) := hlast.append.drop (k + 1)
              rw [hadvances.loop_goOn (round_cut hlast h)]
              refine (ih _ (hless k) hstart rfl).trans ?_
              rw [List.nil_append, String.ofList_append, String.ofList_append, String.append_assoc,
                String.append_assoc]

/-- **A pass that follows the pieces of a text leaves what is left of them.** -/
theorem loop_pass (hfollows : Follows spotAt? mark step kept s) :
    loop (Pass.round (String.ofList s) (String.ofList mark) spotAt?) .start =
      some (String.ofList ((pieces step s).flatMap kept)) := by
  have hstart : StartsAt s 0 ([] ++ s) := startsAt_zero s
  refine (loop_round hfollows hstart).trans ?_
  rw [String.empty_append, List.nil_append]

end CallCensus.Text
