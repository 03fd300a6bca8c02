import CallCensus.Proofs.Cleaning.Respacing
import CallCensus.Proofs.Comment.Cuts

/-!
A text without its comments, as the pattern and the scan leave it.

Both keep the same characters between the same gaps. For a gap the pattern leaves one space;
the scan leaves one for every comment of it, and the blanks that the pattern has taken along.
So what they leave differs in its white space only.

* `collapse`, `collapse_eq_of_respaced`: white space collapsed, and texts that are then the
  same;
* `Cell`, `cells`: what both leave, side by side;
* `map_byPattern_cells`, `flatMap_byScan_cells`: the two sides;
* `respaced_sides`: they differ in their runs of white space only;
* `collapse_strip_agrees`: they are the same when white space is collapsed.
-/

namespace CallCensus

variable {s t u : Text}

/-! ### Collapsed white space -/

/-- A text in which every run of white space, taken as far as it goes, is one space, or nothing
where the run has begun before the text. -/
def collapseFrom (inRun : Bool) : Text → Text
  | [] => []
  | c :: rest =>
    if Unicode.isBlank c then (if inRun then [] else [' ']) ++ collapseFrom true rest
    else c :: collapseFrom false rest

/-- A text in which every run of white space, taken as far as it goes, is one space. -/
def collapse (s : Text) : Text :=
  collapseFrom false s

/-- A run of white space, which may have begun before and may go on. -/
lemma collapseFrom_append (h : IsBlankRun u) (inRun : Bool) (s : Text) :
    collapseFrom inRun (u ++ s) = (if inRun then [] else [' ']) ++ collapseFrom true s := by
  obtain ⟨hne, hblank⟩ := h
  induction u generalizing inRun with
  | nil => exact (hne rfl).elim
  | cons c u ih =>
      obtain ⟨hc, hu⟩ := List.forall_mem_cons.1 hblank
      rw [List.cons_append, collapseFrom, if_pos hc]
      cases u with
      | nil => rfl
      | cons d u =>
          rw [ih true (List.cons_ne_nil d u) hu]
          rfl

lemma collapseFrom_eq_of_respaced (h : Respaced s t) (inRun : Bool) :
    collapseFrom inRun s = collapseFrom inRun t := by
  induction h generalizing inRun with
  | nil => rfl
  | char c h ih => rw [collapseFrom, collapseFrom, ih, ih]
  | blanks hu hv h ih => rw [collapseFrom_append hu, collapseFrom_append hv, ih]

/-- **Texts that differ in their runs of white space only collapse to the same text.** -/
theorem collapse_eq_of_respaced (h : Respaced s t) : collapse s = collapse t :=
  collapseFrom_eq_of_respaced h false

namespace Comment

open Pattern

/-! ### Cells -/

/-- A part of a text without its comments. -/
inductive Cell where
  /-- A character that the pattern and the scan leave. -/
  | kept (c : Char)
  /-- A gap, with what the scan leaves of it. -/
  | gap (left : Text)
deriving DecidableEq

/-- The one character that the pattern leaves of a cell. -/
def Cell.byPattern : Cell → Char
  | kept c => c
  | gap _ => ' '

/-- What the scan leaves of a cell. -/
def Cell.byScan : Cell → Text
  | kept c => [c]
  | gap left => left

/-- The cells of a segment of the pattern: the characters that stay of it, or a gap. -/
def segmentCells : Segment → List Cell
  | .plain c => [.kept c]
  | .hit m =>
    match m.group? 2 with
    | some kept => kept.map .kept
    | none => [.gap (stripByScan m.text)]

/-- A text without its comments, as the pattern and the scan leave it. -/
def cells (s : Text) : List Cell :=
  (found pattern none s).flatMap segmentCells

/-- Every gap among some cells is white space. -/
def GapsBlank (cs : List Cell) : Prop :=
  ∀ left, .gap left ∈ cs → IsBlankRun left

variable {cs : List Cell} {segments : List Segment} {ps : List Piece}

lemma GapsBlank.of_append {part : List Cell} (h : GapsBlank (part ++ cs)) : GapsBlank cs :=
  fun left hleft => h left (List.mem_append_right part hleft)

lemma GapsBlank.tail {cell : Cell} (h : GapsBlank (cell :: cs)) : GapsBlank cs :=
  fun left hleft => h left (List.mem_cons_of_mem cell hleft)

/-- What the pattern leaves of a segment. -/
lemma map_byPattern_segmentCells (segment : Segment) :
    (segmentCells segment).map Cell.byPattern = segmentKept segment := by
  cases segment with
  | plain c => rfl
  | hit m =>
      rw [segmentCells, segmentKept]
      cases m.group? 2 with
      | none => rfl
      | some u => exact (List.map_map ..).trans (List.map_id u)

lemma IsKept.flatMap_kept (h : IsKept u ps) : ps.flatMap Piece.kept = u := by
  rcases h with rfl | rfl
  · exact List.append_nil u
  · rw [List.flatMap_map]
    exact List.flatMap_singleton' u

/-- Where the pattern cuts a text as the scan does, its cells have what the scan leaves, and
the gaps among them are white space. -/
lemma Cuts.cells (h : Cuts segments ps) :
    (segments.flatMap segmentCells).flatMap Cell.byScan = ps.flatMap Piece.kept ∧
      GapsBlank (segments.flatMap segmentCells) := by
  induction h with
  | nil => exact ⟨rfl, fun left hleft => (List.not_mem_nil hleft).elim⟩
  | @gap m segments ps hgroup hgap h ih =>
      have hcell : segmentCells (.hit m) = [.gap (stripByScan m.text)] := by
        rw [segmentCells, hgroup]
      rw [List.flatMap_cons, hcell]
      refine ⟨?_, fun left hleft => ?_⟩
      · rw [List.flatMap_append, List.flatMap_append, ih.1, List.flatMap_singleton]
        rfl
      · rcases List.mem_cons.1 hleft with heq | hleft
        · cases heq
          exact hgap.flatMap_left (fun _ => rfl) fun _ => rfl
        · exact ih.2 left hleft
  | @kept m u segments ps more hgroup hkept h ih =>
      have hcells : segmentCells (.hit m) = u.map .kept := by rw [segmentCells, hgroup]
      have hscan : (u.map Cell.kept).flatMap Cell.byScan = u := by
        rw [List.flatMap_map]
        exact List.flatMap_singleton' u
      rw [List.flatMap_cons, hcells]
      refine ⟨?_, fun left hleft => ?_⟩
      · rw [List.flatMap_append, List.flatMap_append, ih.1, hkept.flatMap_kept, hscan]
      · rcases List.mem_append.1 hleft with hleft | hleft
        · obtain ⟨c, -, heq⟩ := List.mem_map.1 hleft
          cases heq
        · exact ih.2 left hleft

/-! ### The two sides -/

lemma map_byPattern_cells (s : Text) :
    (cells s).map Cell.byPattern = (found pattern none s).flatMap segmentKept := by
  simp only [cells, List.map_flatMap, map_byPattern_segmentCells]

lemma flatMap_byScan_cells (s : Text) : (cells s).flatMap Cell.byScan = stripByScan s :=
  (cuts_found none s).cells.1

lemma gapsBlank_cells (s : Text) : GapsBlank (cells s) :=
  (cuts_found none s).cells.2

/-- The two sides differ in their runs of white space only. -/
lemma respaced_sides (h : GapsBlank cs) :
    Respaced (cs.map Cell.byPattern) (cs.flatMap Cell.byScan) := by
  induction cs with
  | nil => exact .nil
  | cons cell cs ih =>
      rw [List.map_cons, List.flatMap_cons]
      cases cell with
      | kept c => exact .char c (ih h.tail)
      | gap left => exact .blanks isBlankRun_space (h left List.mem_cons_self) (ih h.tail)

lemma eq_of_stripByPattern? {limit : ℕ} {out : Text} (h : stripByPattern? limit s = some out) :
    out = (cells s).map Cell.byPattern :=
  (eq_of_map_segments? h).trans (map_byPattern_cells s).symm

/-- **Both ways to remove comments agree up to white space.** When every run of white space is
collapsed, the scan leaves what the matches of the pattern leave, and so does every search that
does not give up; and no limit changes what is left. -/
theorem collapse_strip_agrees (s : Text) :
    collapse ((found pattern none s).flatMap segmentKept) = collapse (stripByScan s) ∧
      (∀ limit out, stripByPattern? limit s = some out →
        collapse out = collapse (stripByScan s)) ∧
      ∀ limit, collapse (strip limit s) = collapse (stripByScan s) := by
  have hmatches : collapse ((found pattern none s).flatMap segmentKept) =
      collapse (stripByScan s) := by
    rw [← map_byPattern_cells, ← flatMap_byScan_cells]
    exact collapse_eq_of_respaced (respaced_sides (gapsBlank_cells s))
  refine ⟨hmatches, fun limit out h => ?_, view_getD_segments? collapse hmatches⟩
  rw [eq_of_map_segments? h, hmatches]

/-- A comment that opens with `/*/`, with a folded line break after it, a line comment that
goes on behind an escaped line break, and a quote, a `/*` and a backslash that stay open. -/
def looseEnds : Text :=
  ['a', '/', '*', '/', '*', '/', ' ', '\r', '\n', '\n', '/', '/', '\\', '\n', 'b', '\r', '\n',
    '\'', '/', '*', '\\']

/-- The search finishes on the loose ends. It leaves less white space than the scan, and the
same when white space is collapsed. -/
theorem collapse_strip_agrees_looseEnds :
    ∃ out, stripByPattern? 20 looseEnds = some out ∧ out ≠ stripByScan looseEnds ∧
      collapse out = collapse (stripByScan looseEnds) := by
  have hsearch : stripByPattern? 20 looseEnds =
      some ['a', ' ', '\n', ' ', '\r', '\n', '\'', '/', '*', '\\'] := by decide +kernel
  have hne : ['a', ' ', '\n', ' ', '\r', '\n', '\'', '/', '*', '\\'] ≠ stripByScan looseEnds := by
    decide +kernel
  obtain ⟨-, hagree, -⟩ := collapse_strip_agrees looseEnds
  exact ⟨_, hsearch, hne, hagree 20 _ hsearch⟩

end Comment

end CallCensus
