import CallCensus.Proofs.CallSite.Sites
import CallCensus.Proofs.Cleaning.Protection
import CallCensus.Proofs.Literal.Lines
import CallCensus.Proofs.Text.Utf8

/-!
A text bounds what is left of it, and what is counted in it.

A comment has its marker at least and leaves one space, and a literal leaves nothing, so no text
gets longer when it is cleaned. Call sites do not overlap, and each has the bytes of the name and
one more for its bracket, so a text of few bytes has few of them.

* `CallSite.sites_mul_le`: the call sites of a text, by its length in bytes;
* `CallSite.count_mul_le`: so many are counted at most;
* `Comment.utf8Length_le_of_rendered`: a text without its comments is no longer;
* `Cleaning.utf8Length_le_of_cleaned`: nor is it without its literals.
-/

namespace CallCensus

open Text Text.Utf8

/-! ### Call sites -/

namespace CallSite

variable {operator part left s : Text} {c : Char}

lemma IsSite.utf8Length_lt (h : IsSite operator part) :
    utf8Length operator + 1 ≤ utf8Length part := by
  obtain ⟨u, o, -, -, rfl⟩ := h
  have hbracket : 1 ≤ utf8Length [o] := one_le_utf8Length (List.cons_ne_nil o [])
  rw [utf8Length_append, utf8Length_append]
  omega

/-- A text holds the bytes of all its call sites. -/
lemma sites_mul_le (word : Char → Bool) (operator : Text) (inName : Bool) (s : Text) :
    sites word operator inName s * (utf8Length operator + 1) ≤ utf8Length s := by
  fun_induction sites word operator inName s with
  | case1 => rw [Nat.zero_mul]; exact Nat.zero_le _
  | case2 inName c rest hnone ih =>
      rw [utf8Length_cons]
      exact Nat.le_add_left_of_le ih
  | case3 inName c rest left hsite ih =>
      have hafter : afterSite? operator (c :: rest) = some left := by
        split_ifs at hsite
        exact hsite
      obtain ⟨part, hpart, heq⟩ := afterSite?_eq_some.1 hafter
      have hlength := hpart.utf8Length_lt
      rw [heq, utf8Length_append, Nat.add_one_mul]
      omega

lemma countByScan_mul_le (operator s : Text) :
    countByScan operator s * (utf8Length operator + 1) ≤ utf8Length s := by
  by_cases hoperator : operator = []
  · have hzero : countByScan operator s = 0 := if_pos (List.isEmpty_iff.2 hoperator)
    rw [hzero, Nat.zero_mul]
    exact Nat.zero_le _
  · rw [countByScan_eq_sites hoperator]
    exact sites_mul_le isNameCharacter operator false s

lemma countByPattern?_mul_le {limit n : ℕ} (h : countByPattern? limit operator s = some n) :
    n * (utf8Length operator + 1) ≤ utf8Length s := by
  rw [countByPattern?_eq_sites h]
  exact sites_mul_le Unicode.isWord operator false s

lemma count_mul_le (limit : ℕ) (operator s : Text) :
    count limit operator s * (utf8Length operator + 1) ≤ utf8Length s := by
  rw [count]
  cases hcount : countByPattern? limit operator s with
  | none => exact countByScan_mul_le operator s
  | some n => exact countByPattern?_mul_le hcount

end CallSite

/-! ### Comments -/

namespace Comment

/-- A rendering of pieces has no more bytes than their text. -/
lemma utf8Length_le_of_rendered {ps : List Piece} {out : Text} (h : Rendered ps out)
    (hps : ∀ body, Piece.comment body ∈ ps → 2 ≤ body.length) :
    utf8Length out ≤ utf8Length (ps.flatMap Piece.source) := by
  induction h with
  | nil => exact Nat.le_refl _
  | code c h ih =>
      have hrest := ih fun b hb => hps b (List.mem_cons_of_mem _ hb)
      rw [List.flatMap_cons, Piece.source, List.singleton_append, utf8Length_cons, utf8Length_cons]
      exact Nat.add_le_add_left hrest _
  | quoted s h ih =>
      have hrest := ih fun b hb => hps b (List.mem_cons_of_mem _ hb)
      rw [List.flatMap_cons, Piece.source, utf8Length_append, utf8Length_append]
      exact Nat.add_le_add_left hrest _
  | @gap run ps out hrun h ih =>
      have hrest := ih fun b hb => hps b (List.mem_append_right _ hb)
      have htwo := Cleaning.two_le_length_flatMap (fun b hb => hps b (List.mem_append_left _ hb))
        hrun.comment
      have hgap : 1 ≤ utf8Length (run.flatMap Piece.source) :=
        one_le_utf8Length (List.ne_nil_of_length_pos (Nat.lt_of_lt_of_le Nat.two_pos htwo))
      rw [List.flatMap_append, utf8Length_append, utf8Length_cons]
      exact Nat.add_le_add hgap hrest

end Comment

/-! ### Cleaning -/

namespace Cleaning

variable {s out : Text}

lemma utf8Length_le_of_commentsRemoved (h : CommentsRemoved s out) :
    utf8Length out ≤ utf8Length s := by
  have hle := Comment.utf8Length_le_of_rendered (rendered_of_commentsRemoved h)
    fun _ => two_le_length_of_mem_pieces
  rwa [Comment.source_pieces] at hle

lemma utf8Length_le_of_literalsRemoved (h : LiteralsRemoved s out) :
    utf8Length out ≤ utf8Length s := by
  rw [eq_of_literalsRemoved h]
  exact utf8Length_le_of_sublist (Literal.stripByScan_sublist s)

lemma utf8Length_le_of_cleaned (h : Cleaned s out) : utf8Length out ≤ utf8Length s := by
  obtain ⟨commentless, hcomments, hliterals⟩ := h
  exact Nat.le_trans (utf8Length_le_of_literalsRemoved hliterals)
    (utf8Length_le_of_commentsRemoved hcomments)

end Cleaning

end CallCensus
