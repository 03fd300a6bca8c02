import CallCensus.Proofs.Comment.Cuts

/-!
What may be left of a text without its comments.

Code and quoted spans stay as they are, and a gap, a run of comments and blanks, becomes one
space. Both ways to remove comments leave such a rendering of the scan's pieces: the scan takes
every comment for a gap of its own, the pattern takes as many as it can reach for one.

* `Rendered`: what may be left of a list of pieces;
* `rendered_kept`: what the scan leaves;
* `rendered_of_stripByPattern?`: what the pattern leaves.
-/

namespace CallCensus.Comment

open Pattern

/-- A text that is left of a list of pieces when every gap, however cut, becomes one space. -/
inductive Rendered : List Piece → Text → Prop
  | nil : Rendered [] []
  | code (c : Char) {ps : List Piece} {out : Text} (h : Rendered ps out) :
      Rendered (.code c :: ps) (c :: out)
  | quoted (s : Text) {ps : List Piece} {out : Text} (h : Rendered ps out) :
      Rendered (.quoted s :: ps) (s ++ out)
  | gap {run ps : List Piece} {out : Text} (hrun : IsGap run) (h : Rendered ps out) :
      Rendered (run ++ ps) (' ' :: out)

/-- What the scan leaves is a rendering in which every comment is a gap of its own. -/
lemma rendered_kept (ps : List Piece) : Rendered ps (ps.flatMap Piece.kept) := by
  induction ps with
  | nil => exact .nil
  | cons piece ps ih =>
      rw [List.flatMap_cons]
      cases piece with
      | code c => exact .code c ih
      | quoted s => exact .quoted s ih
      | comment s => exact .gap (IsGap.single s) ih

lemma Rendered.append_code {ps : List Piece} {out : Text} (h : Rendered ps out) (u : Text) :
    Rendered (u.map .code ++ ps) (u ++ out) := by
  induction u with
  | nil => exact h
  | cons c u ih => exact .code c ih

/-- What stays of the pattern's segments is a rendering of the pieces that are cut at the same
places. -/
lemma Cuts.rendered {segments : List Segment} {ps : List Piece} (h : Cuts segments ps) :
    Rendered ps (segments.flatMap segmentKept) := by
  induction h with
  | nil => exact .nil
  | gap hgroup hgap h ih =>
      rw [List.flatMap_cons, segmentKept, hgroup]
      exact .gap hgap ih
  | kept hgroup hkept h ih =>
      rw [List.flatMap_cons, segmentKept, hgroup]
      rcases hkept with rfl | rfl
      · exact .quoted _ ih
      · exact ih.append_code _

/-- **A search for comments that does not give up leaves a rendering of the text's pieces.** -/
theorem rendered_of_stripByPattern? {limit : ℕ} {s out : Text}
    (h : stripByPattern? limit s = some out) : Rendered (pieces s) out := by
  rw [eq_of_map_segments? h]
  exact (cuts_found none s).rendered

end CallCensus.Comment
