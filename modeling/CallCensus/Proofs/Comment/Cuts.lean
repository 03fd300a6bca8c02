import CallCensus.Proofs.Comment.Tokens

/-!
The comment pattern cuts a text where the scan does.

The pattern takes comments that follow each other in one go, with the blanks between them, and
of what is no comment it takes a quoted span or a run of code at a time. So each of its
segments is made of whole pieces of the scan. A run of comments is moreover cut into the same
pieces when it stands alone: a block comment and a line break are closed, which means that
nothing after them changes how they are cut, and a line comment that ends a run is followed by
a line break or by nothing.

* `Closed`: texts that are cut alike whatever follows them;
* `IsGap`, `takesGap_of_first?_commentRun`: the first group of the pattern takes a gap, a run of
  comments and blanks;
* `takesKept_of_first?_keptPart`: the second group takes a quoted span or code;
* `Cuts`, `cuts_found`: the segments of the pattern and the pieces of the scan.
-/

namespace CallCensus.Comment

open Pattern

/-! ### The pieces at the start of a text -/

variable {q c : Char} {s rest u v w body : Text} {n m : ℕ} {here there mid : Cursor}

@[simp] lemma pieces_nil : pieces [] = [] :=
  Text.pieces_nil pieceAt

lemma pieces_cons (c : Char) (rest : Text) :
    pieces (c :: rest) = (pieceAt c rest).1 :: pieces (rest.drop (pieceAt c rest).2) :=
  Text.pieces_cons pieceAt c rest

lemma pieces_code (h : pieceAt c rest = (.code c, 0)) :
    pieces (c :: rest) = .code c :: pieces rest := by
  rw [pieces_cons, h]
  rfl

lemma pieceAt_ordinary (hquote : ¬(c = '"' ∨ c = '\'')) (hslash : c ≠ '/') :
    pieceAt c rest = (.code c, 0) := by
  simp only [pieceAt, if_neg hquote, if_neg hslash]

lemma pieces_append (hu : ∀ c ∈ u, ¬(c = '"' ∨ c = '\'') ∧ c ≠ '/') (s : Text) :
    pieces (u ++ s) = u.map .code ++ pieces s := by
  induction u with
  | nil => rfl
  | cons c u ih =>
      obtain ⟨⟨hquote, hslash⟩, hu⟩ := List.forall_mem_cons.1 hu
      rw [List.cons_append, pieces_code (pieceAt_ordinary hquote hslash), ih hu]
      rfl

lemma ordinary_of_isBlank (h : Unicode.isBlank c = true) :
    ¬(c = '"' ∨ c = '\'') ∧ c ≠ '/' := by
  refine ⟨?_, ?_⟩
  · rintro (rfl | rfl) <;> cases h
  · rintro rfl
    cases h

lemma pieces_blanks (hu : ∀ c ∈ u, Unicode.isBlank c = true) (s : Text) :
    pieces (u ++ s) = u.map .code ++ pieces s :=
  pieces_append (fun c hc => ordinary_of_isBlank (hu c hc)) s

lemma pieces_of_blanks (hu : ∀ c ∈ u, Unicode.isBlank c = true) :
    pieces u = u.map .code := by
  have h := pieces_blanks hu []
  rwa [List.append_nil, pieces_nil, List.append_nil] at h

lemma pieces_quoted (hq : q = '"' ∨ q = '\'') (h : closing? q rest 0 = some n) :
    pieces (q :: rest) = .quoted (q :: rest.take n) :: pieces (rest.drop n) := by
  have hpiece : pieceAt q rest = (.quoted (q :: rest.take n), n) := by
    simp only [pieceAt, if_pos hq, h]
  rw [pieces_cons, hpiece]

lemma pieces_block (h : blockEnd? rest 0 = some n) :
    pieces ('/' :: '*' :: rest) =
      .comment ('/' :: '*' :: rest.take n) :: pieces (rest.drop n) := by
  have hpiece : pieceAt '/' ('*' :: rest) = (.comment ('/' :: '*' :: rest.take n), n + 1) := by
    simp [pieceAt, h]
  rw [pieces_cons, hpiece, List.drop_succ_cons]

lemma pieces_line (rest : Text) :
    pieces ('/' :: '/' :: rest) =
      .comment ('/' :: '/' :: rest.take (lineEnd rest 0)) ::
        pieces (rest.drop (lineEnd rest 0)) := by
  have hpiece : pieceAt '/' ('/' :: rest) =
      (.comment ('/' :: '/' :: rest.take (lineEnd rest 0)), lineEnd rest 0 + 1) := by
    simp [pieceAt]
  rw [pieces_cons, hpiece, List.drop_succ_cons]

/-! ### What follows a comment -/

lemma le_of_blockEnd? (h : blockEnd? s n = some m) : n + 2 ≤ m := by
  fun_induction blockEnd? s n with
  | case1 => cases h
  | case2 rest n => exact Nat.le_of_eq (Option.some_inj.1 h)
  | case3 c rest n _ ih => exact Nat.le_of_succ_le (ih h)

/-- Where a block comment ends does not depend on what follows it. -/
lemma blockEnd?_congr (h : blockEnd? (body ++ v) n = some (n + body.length)) (w : Text) :
    blockEnd? (body ++ w) n = some (n + body.length) := by
  induction body generalizing n with
  | nil =>
      have hle := le_of_blockEnd? h
      rw [List.length_nil] at hle
      omega
  | cons c body ih =>
      have hlength : n + (c :: body).length = n + 1 + body.length := by
        rw [List.length_cons]
        omega
      by_cases hc : c = '*'
      · subst hc
        cases body with
        | nil =>
            have hle := le_of_blockEnd? h
            rw [List.length_singleton] at hle
            omega
        | cons d body =>
            by_cases hd : d = '/'
            · subst hd
              exact h
            · rw [List.cons_append, List.cons_append, blockEnd?_star hd, hlength] at h ⊢
              exact ih h
      · rw [List.cons_append, blockEnd?_ordinary hc, hlength] at h ⊢
        exact ih h

/-- Nothing, or a text that starts with the same line break as another. -/
def BreaksAlike (v w : Text) : Prop :=
  w = [] ∨ ∃ b v' w', (b = ['\n'] ∨ b = ['\r', '\n']) ∧ v = b ++ v' ∧ w = b ++ w'

lemma BreaksAlike.feed (h : BreaksAlike v w) {t : Text} (ht : body ++ w = '\n' :: t) :
    ∃ t', body ++ v = '\n' :: t' := by
  cases body with
  | nil =>
      rcases h with rfl | ⟨b, v', w', rfl | rfl, rfl, rfl⟩
      · cases ht
      · exact ⟨v', rfl⟩
      · cases ht
  | cons c body =>
      cases ht
      exact ⟨body ++ v, rfl⟩

lemma BreaksAlike.return_feed (h : BreaksAlike v w) {t : Text}
    (ht : body ++ w = '\r' :: '\n' :: t) : ∃ t', body ++ v = '\r' :: '\n' :: t' := by
  cases body with
  | nil =>
      rcases h with rfl | ⟨b, v', w', rfl | rfl, rfl, rfl⟩
      · cases ht
      · cases ht
      · exact ⟨v', rfl⟩
  | cons c body =>
      rw [List.cons_append, List.cons.injEq] at ht
      obtain ⟨rfl, ht⟩ := ht
      obtain ⟨t', ht'⟩ := h.feed ht
      exact ⟨t', by rw [List.cons_append, ht']⟩

lemma le_lineEnd (s : Text) (n : ℕ) : n ≤ lineEnd s n := by
  rw [lineEnd_eq]
  exact Nat.le_add_left _ _

lemma prefix_of_append_eq {start : Text} (h : body ++ v = start ++ rest)
    (hle : start.length ≤ body.length) : start <+: body :=
  List.prefix_of_prefix_length_le ⟨rest, h.symm⟩ (List.prefix_append body v) hle

lemma BreaksAlike.lineEnd_eq (h : BreaksAlike v w) (n : ℕ) : lineEnd w n = n := by
  rcases h with rfl | ⟨b, v', w', rfl | rfl, rfl, rfl⟩ <;> rfl

/-- What the scan takes in one step is part of the comment if the scan stops at the end of that. -/
lemma exists_body_of_step (start : Text) (hs : body ++ v = start ++ rest)
    (h : lineEnd rest (n + start.length) = n + body.length) :
    ∃ body', body = start ++ body' ∧ body' ++ v = rest ∧
      lineEnd rest (n + start.length) = n + start.length + body'.length := by
  have hle := le_lineEnd rest (n + start.length)
  obtain ⟨body', rfl⟩ := prefix_of_append_eq hs (by rw [h] at hle; omega)
  refine ⟨body', rfl, ?_, ?_⟩
  · rw [List.append_assoc] at hs
    exact List.append_cancel_left hs
  · rw [h, List.length_append, Nat.add_assoc]

/-- Where a line comment ends depends only on the line break there, and on nothing when the
text ends there. -/
lemma lineEnd_congr (hvw : BreaksAlike v w) (h : lineEnd (body ++ v) n = n + body.length) :
    lineEnd (body ++ w) n = n + body.length := by
  -- The scan reads the comment in the same steps in both texts.
  generalize hs : body ++ v = s at h
  fun_induction lineEnd s n generalizing body with
  | case1 n =>
      obtain ⟨rfl, rfl⟩ := List.append_eq_nil_iff.1 hs
      exact hvw.lineEnd_eq n
  | case2 rest n ih =>
      obtain ⟨body, rfl, hbody, hend⟩ := exists_body_of_step ['\\', '\r', '\n'] hs h
      rw [List.length_append, ← Nat.add_assoc]
      exact ih hbody hend
  | case3 rest n ih =>
      obtain ⟨body, rfl, hbody, hend⟩ := exists_body_of_step ['\\', '\n'] hs h
      rw [List.length_append, ← Nat.add_assoc]
      exact ih hbody hend
  | case4 rest n | case5 rest n =>
      obtain rfl : body = [] := List.length_eq_zero_iff.1 (by omega)
      exact hvw.lineEnd_eq n
  | case6 c rest n hreturn hfeed hnotFeed hnotReturn ih =>
      obtain ⟨body, rfl, hbody, hend⟩ := exists_body_of_step [c] hs h
      subst hbody
      rw [List.length_append, ← Nat.add_assoc, List.singleton_append, List.cons_append,
        lineEnd.eq_6]
      · exact ih rfl hend
      · intro t hc ht
        obtain ⟨t', ht'⟩ := hvw.return_feed ht
        exact hreturn t' hc ht'
      · intro t hc ht
        obtain ⟨t', ht'⟩ := hvw.feed ht
        exact hfeed t' hc ht'
      · exact hnotFeed
      · intro t hc ht
        obtain ⟨t', ht'⟩ := hvw.feed ht
        exact hnotReturn t' hc ht'

/-! ### Texts that are closed -/

/-- A text that is cut in the same way whatever follows it. -/
def Closed (u : Text) : Prop :=
  ∀ rest, pieces (u ++ rest) = pieces u ++ pieces rest

lemma Closed.append (hu : Closed u) (hv : Closed v) : Closed (u ++ v) := by
  intro rest
  rw [List.append_assoc, hu, hv, hu, List.append_assoc]

lemma closed_of_blanks (hu : ∀ c ∈ u, Unicode.isBlank c = true) : Closed u := by
  intro rest
  rw [pieces_blanks hu, pieces_of_blanks hu]

lemma pieces_block_append (h : blockEnd? (body ++ v) 0 = some body.length) (w : Text) :
    pieces ('/' :: '*' :: (body ++ w)) = .comment ('/' :: '*' :: body) :: pieces w := by
  have hend := blockEnd?_congr (by rw [h, Nat.zero_add]) w
  rw [Nat.zero_add] at hend
  rw [pieces_block hend, List.take_left, List.drop_left]

lemma closed_block (h : blockEnd? (body ++ v) 0 = some body.length) :
    pieces ('/' :: '*' :: body) = [.comment ('/' :: '*' :: body)] ∧
      Closed ('/' :: '*' :: body) := by
  have halone := pieces_block_append h []
  rw [List.append_nil, pieces_nil] at halone
  refine ⟨halone, fun rest => ?_⟩
  rw [List.cons_append, List.cons_append, pieces_block_append h, halone]
  rfl

/-- A line comment is one piece wherever the line ends after it in the same way, or the text
does. -/
lemma pieces_line_append (h : lineEnd (body ++ v) 0 = body.length) (hvw : BreaksAlike v w) :
    pieces ('/' :: '/' :: (body ++ w)) = .comment ('/' :: '/' :: body) :: pieces w := by
  have hend : lineEnd (body ++ w) 0 = 0 + body.length :=
    lineEnd_congr hvw (by rw [h, Nat.zero_add])
  rw [pieces_line, hend, Nat.zero_add, List.take_left, List.drop_left]

lemma pieces_line_alone (h : lineEnd (body ++ v) 0 = body.length) :
    pieces ('/' :: '/' :: body) = [.comment ('/' :: '/' :: body)] := by
  have halone := pieces_line_append h (.inl rfl)
  rwa [List.append_nil, pieces_nil] at halone

/-! ### Blanks that a run of comments takes along -/

/-- A place that is reached from another by taking blanks only. -/
def SkipsBlanks (here there : Cursor) : Prop :=
  ∃ u, (∀ c ∈ u, Unicode.isBlank c = true) ∧ here.rest = u ++ there.rest

lemma SkipsBlanks.refl (here : Cursor) : SkipsBlanks here here :=
  ⟨[], by simp, rfl⟩

lemma SkipsBlanks.trans (h : SkipsBlanks here mid) (h' : SkipsBlanks mid there) :
    SkipsBlanks here there := by
  obtain ⟨u, hu, hrest⟩ := h
  obtain ⟨v, hv, hrest'⟩ := h'
  refine ⟨u ++ v, List.forall_mem_append.2 ⟨hu, hv⟩, ?_⟩
  rw [hrest, hrest', List.append_assoc]

lemma mem_ends_indent (h : there ∈ indent.ends here) :
    ∃ u, (∀ c ∈ u, c = ' ' ∨ c = '\t') ∧ here.rest = u ++ there.rest := by
  obtain ⟨u, rest, hu, hrest, rfl⟩ := mem_ends_many_one.1 h
  refine ⟨u, fun c hc => ?_, hrest⟩
  have hblank := hu c hc
  simpa only [List.contains_eq_mem, List.mem_cons, List.not_mem_nil, or_false,
    decide_eq_true_eq] using hblank

lemma skipsBlanks_of_mem_ends_indent (h : there ∈ indent.ends here) : SkipsBlanks here there := by
  obtain ⟨u, hu, hrest⟩ := mem_ends_indent h
  refine ⟨u, fun c hc => ?_, hrest⟩
  rcases hu c hc with rfl | rfl <;> rfl

lemma mem_ends_foldedBreak (h : there ∈ foldedBreak.ends here) :
    ∃ u, (u = ['\n'] ∨ u = ['\r', '\n']) ∧ here.rest = u ++ there.rest := by
  obtain ⟨mid, hmid, hthere⟩ := List.mem_flatMap.1 h
  obtain ⟨u, rest, hu, hrest, rfl⟩ := mem_ends_lineBreak.1 hmid
  exact ⟨u, hu, by rw [hrest, rest_of_mem_ends_ahead hthere, Cursor.rest_after]⟩

lemma skipsBlanks_of_mem_ends_foldedBreak (h : there ∈ foldedBreak.ends here) :
    SkipsBlanks here there := by
  obtain ⟨u, hu, hrest⟩ := mem_ends_foldedBreak h
  exact ⟨u, isBlank_of_lineBreak hu, hrest⟩

/-! ### Gaps that the pattern takes -/

/-- A run of pieces that may become one space: at least one comment, and blanks besides. -/
structure IsGap (run : List Piece) : Prop where
  comment : ∃ s, Piece.comment s ∈ run
  blank : ∀ piece ∈ run,
    (∃ s, piece = .comment s) ∨ ∃ c, Unicode.isBlank c = true ∧ piece = .code c

lemma IsGap.single (s : Text) : IsGap [.comment s] :=
  ⟨⟨s, List.mem_cons_self⟩, fun _ h => .inl ⟨s, List.mem_singleton.1 h⟩⟩

/-- Where a comment leaves a space and a character of code stays, a gap leaves white space. -/
lemma IsGap.flatMap_left {run : List Piece} {left : Piece → Text} (h : IsGap run)
    (hcode : ∀ c, left (.code c) = [c]) (hcomment : ∀ s, left (.comment s) = [' ']) :
    run.flatMap left ≠ [] ∧ ∀ c ∈ run.flatMap left, Unicode.isBlank c = true := by
  obtain ⟨⟨s, hs⟩, hblank⟩ := h
  refine ⟨?_, ?_⟩
  · intro hnil
    have hempty := List.flatMap_eq_nil_iff.1 hnil _ hs
    rw [hcomment] at hempty
    cases hempty
  · intro c hc
    obtain ⟨piece, hpiece, hc⟩ := List.mem_flatMap.1 hc
    rcases hblank piece hpiece with ⟨s, rfl⟩ | ⟨d, hd, rfl⟩
    · rw [hcomment] at hc
      obtain rfl := List.mem_singleton.1 hc
      rfl
    · rw [hcode] at hc
      obtain rfl := List.mem_singleton.1 hc
      exact hd

lemma IsGap.of_append {run more : List Piece} (h : IsGap run)
    (hmore : ∀ piece ∈ more,
      (∃ s, piece = .comment s) ∨ ∃ c, Unicode.isBlank c = true ∧ piece = .code c) :
    IsGap (run ++ more) ∧ IsGap (more ++ run) := by
  obtain ⟨⟨s, hs⟩, hblank⟩ := h
  refine ⟨⟨⟨s, List.mem_append_left _ hs⟩, ?_⟩, ⟨⟨s, List.mem_append_right _ hs⟩, ?_⟩⟩
  · exact List.forall_mem_append.2 ⟨hblank, hmore⟩
  · exact List.forall_mem_append.2 ⟨hmore, hblank⟩

lemma blank_map_code (hu : ∀ c ∈ u, Unicode.isBlank c = true) :
    ∀ piece ∈ u.map Piece.code,
      (∃ s, piece = .comment s) ∨ ∃ c, Unicode.isBlank c = true ∧ piece = .code c := by
  intro piece hpiece
  obtain ⟨c, hc, rfl⟩ := List.mem_map.1 hpiece
  exact .inr ⟨c, hu c hc, rfl⟩

/-- A place where the text or the line ends. -/
def AtLineEnd (here : Cursor) : Prop :=
  here.rest = [] ∨ ∃ u rest, (u = ['\n'] ∨ u = ['\r', '\n']) ∧ here.rest = u ++ rest

/-- A place that is reached from another by taking a gap, which is cut into the same pieces when
it stands alone. A gap that is not closed ends where the line does. -/
def TakesGap (here there : Cursor) : Prop :=
  ∃ u, here.rest = u ++ there.rest ∧ IsGap (pieces u) ∧
    pieces here.rest = pieces u ++ pieces there.rest ∧ (Closed u ∨ AtLineEnd there)

/-- A closed gap is cut out wherever it stands. -/
lemma takesGap_of_closed (hrest : here.rest = u ++ there.rest) (hgap : IsGap (pieces u))
    (hclosed : Closed u) : TakesGap here there :=
  ⟨u, hrest, hgap, by rw [hrest, hclosed], .inl hclosed⟩

/-- Blanks, and then a gap. -/
lemma SkipsBlanks.takesGap (h : SkipsBlanks here mid) (h' : TakesGap mid there) :
    TakesGap here there := by
  obtain ⟨v, hrest', hgap, hpieces, hend⟩ := h'
  obtain ⟨u, hu, hrest⟩ := h
  have hclosed := closed_of_blanks hu
  refine ⟨u ++ v, by rw [hrest, hrest', List.append_assoc], ?_, ?_, hend.imp_left hclosed.append⟩
  · rw [hclosed, pieces_of_blanks hu]
    exact (hgap.of_append (blank_map_code hu)).2
  · rw [hrest, hclosed, hclosed, hpieces, List.append_assoc]

/-- A gap after which the line goes on, and then another. -/
lemma TakesGap.trans (h : TakesGap here mid) (hmid : ¬AtLineEnd mid) (h' : TakesGap mid there) :
    TakesGap here there := by
  obtain ⟨u, hrest, hgap, hpieces, hend⟩ := h
  obtain ⟨v, hrest', hgap', hpieces', hend'⟩ := h'
  have hclosed := hend.resolve_right hmid
  refine ⟨u ++ v, by rw [hrest, hrest', List.append_assoc], ?_, ?_, hend'.imp_left hclosed.append⟩
  · rw [hclosed]
    exact (hgap.of_append hgap'.blank).1
  · rw [hpieces, hpieces', hclosed, List.append_assoc]

/-- A block comment is a gap, with what is folded after it. -/
lemma takesGap_of_mem_ends_blockComment (h : there ∈ blockComment.ends here) :
    TakesGap here there := by
  obtain ⟨opened, hopened, h⟩ := mem_ends_sequence_cons.1 h
  obtain ⟨ordinary, hordinary, h⟩ := mem_ends_sequence_cons.1 h
  obtain ⟨stars, hstars, h⟩ := mem_ends_sequence_cons.1 h
  obtain ⟨rounds, hrounds, h⟩ := mem_ends_sequence_cons.1 h
  obtain ⟨closed, hclosed, h⟩ := mem_ends_sequence_cons.1 h
  have htail : closed ∈ blockTail.ends opened := by
    refine mem_ends_sequence_cons.2 ⟨ordinary, hordinary, ?_⟩
    refine mem_ends_sequence_cons.2 ⟨stars, hstars, ?_⟩
    exact List.mem_flatMap.2 ⟨rounds, hrounds, hclosed⟩
  have hfold : SkipsBlanks closed there := by
    rcases List.mem_append.1 h with h | h
    · obtain ⟨mid, hmid, h⟩ := List.mem_flatMap.1 h
      exact (skipsBlanks_of_mem_ends_indent hmid).trans (skipsBlanks_of_mem_ends_foldedBreak h)
    · exact List.mem_singleton.1 h ▸ .refl closed
  obtain ⟨rest, hrest, rfl⟩ := mem_ends_exactly.1 hopened
  obtain ⟨body, hbody, htaken, -⟩ := reaches_of_mem_ends _ _ _ htail
  have hend := blockEnd?_zero (blockEnd?_of_mem_ends_blockTail htail)
  rw [htaken, Nat.add_sub_cancel_left, hbody] at hend
  obtain ⟨hpieces, hblock⟩ := closed_block hend
  obtain ⟨v, hv, hleft⟩ := hfold
  refine takesGap_of_closed (u := '/' :: '*' :: body ++ v) ?_ ?_
    (hblock.append (closed_of_blanks hv))
  · rw [Cursor.rest_after] at hbody
    rw [hrest, hbody, hleft, List.append_assoc]
    rfl
  · rw [hblock, hpieces, pieces_of_blanks hv]
    exact ((IsGap.single _).of_append (blank_map_code hv)).1

/-- A line comment with the line break after it is a gap. -/
lemma takesGap_of_foldedLine (hrest : here.rest = '/' :: '/' :: (body ++ mid.rest))
    (hend : lineEnd (body ++ mid.rest) 0 = body.length) (h : there ∈ foldedBreak.ends mid) :
    TakesGap here there := by
  obtain ⟨b, hb, hmid⟩ := mem_ends_foldedBreak h
  have hblank := isBlank_of_lineBreak hb
  have hcut : ∀ rest, pieces ('/' :: '/' :: body ++ b ++ rest) =
      .comment ('/' :: '/' :: body) :: (b.map .code ++ pieces rest) := by
    intro rest
    have halike : BreaksAlike mid.rest (b ++ rest) := .inr ⟨b, there.rest, rest, hb, hmid, rfl⟩
    rw [List.append_assoc, ← pieces_blanks hblank]
    exact pieces_line_append hend halike
  have halone : pieces ('/' :: '/' :: body ++ b) =
      .comment ('/' :: '/' :: body) :: b.map .code := by
    have h := hcut []
    rwa [List.append_nil, pieces_nil, List.append_nil] at h
  refine takesGap_of_closed (u := '/' :: '/' :: body ++ b) ?_ ?_ ?_
  · rw [hrest, hmid, List.append_assoc]
    rfl
  · rw [halone]
    exact ((IsGap.single _).of_append (blank_map_code hblank)).1
  · intro rest
    rw [hcut, halone]
    rfl

/-- A line comment alone is a gap where the line ends after it. -/
lemma takesGap_of_line (hrest : here.rest = '/' :: '/' :: (body ++ there.rest))
    (hend : lineEnd (body ++ there.rest) 0 = body.length) (h : AtLineEnd there) :
    TakesGap here there := by
  refine ⟨'/' :: '/' :: body, hrest, ?_, ?_, .inr h⟩
  · rw [pieces_line_alone hend]
    exact IsGap.single _
  · rw [hrest, pieces_line, hend, List.take_left, List.drop_left, pieces_line_alone hend]
    rfl

/-- A line comment is a gap, with what is folded after it. -/
lemma takesGap_of_first?_lineComment (h : lineComment.first? here = some there) :
    TakesGap here there := by
  rw [lineComment_eq, first?_seq] at h
  obtain ⟨opened, hopened, hfirst⟩ := List.exists_of_findSome?_eq_some h
  obtain ⟨rest, hrest, rfl⟩ := mem_ends_exactly.1 hopened
  obtain ⟨mid, there', hreaches, htaken, hfirst', htail⟩ :=
    exists_first?_lineTail (here.after ['/', '/'] rest) rfl rfl
  obtain rfl := Option.some_inj.1 (hfirst'.symm.trans hfirst)
  obtain ⟨body, hbody, htaken', -⟩ := hreaches
  rw [Cursor.rest_after] at hbody
  have hend : lineEnd (body ++ mid.rest) 0 = body.length := by
    rw [htaken, Cursor.rest_after, lineEnd_eq, hbody, Nat.add_comm] at htaken'
    exact Nat.add_left_cancel htaken'
  have hhere : here.rest = '/' :: '/' :: (body ++ mid.rest) := by
    rw [hrest, hbody]
    rfl
  rcases List.mem_append.1 htail with htail | htail
  · exact takesGap_of_foldedLine hhere hend htail
  rcases List.mem_append.1 htail with htail | htail
  · have hleft := rest_of_mem_ends_ahead htail
    have hbreak : AtLineEnd there' := by
      obtain ⟨next, hnext, -⟩ := List.mem_map.1 htail
      have hnext := List.mem_of_mem_head? (Option.mem_toList.1 hnext)
      obtain ⟨u, rest', hu, hrest', -⟩ := mem_ends_lineBreak.1 hnext
      exact .inr ⟨u, rest', hu, hleft.trans hrest'⟩
    rw [← hleft] at hhere hend
    exact takesGap_of_line hhere hend hbreak
  · obtain ⟨hempty, rfl⟩ := mem_ends_textEnd.1 htail
    exact takesGap_of_line hhere hend (.inl hempty)

/-- A single comment. -/
def comment : Pattern :=
  alt blockComment lineComment

/-- A comment in a run: at the start of the text with the blanks before it. -/
def commentRound : Pattern :=
  seq (optional (seq textStart indent)) comment

lemma commentRun_eq : commentRun = seq commentRound (many commentRound) := rfl

lemma takesGap_of_first?_comment (h : comment.first? here = some there) :
    TakesGap here there := by
  rw [comment, first?_alt, Option.or_eq_some_iff] at h
  rcases h with h | ⟨-, h⟩
  · exact takesGap_of_mem_ends_blockComment (mem_ends_of_first? h)
  · exact takesGap_of_first?_lineComment h

/-- Before a comment the pattern takes at most spaces and tabs. -/
lemma mem_ends_leading (h : there ∈ (optional (seq textStart indent)).ends here) :
    ∃ u, (∀ c ∈ u, c = ' ' ∨ c = '\t') ∧ here.rest = u ++ there.rest := by
  rcases List.mem_append.1 h with h | h
  · obtain ⟨start, hstart, hindent⟩ := List.mem_flatMap.1 h
    rw [ends] at hstart
    split_ifs at hstart
    · exact List.mem_singleton.1 hstart ▸ mem_ends_indent hindent
    · cases hstart
  · exact ⟨[], by simp, by rw [List.mem_singleton.1 h]; rfl⟩

lemma takesGap_of_first?_commentRound (h : commentRound.first? here = some there) :
    TakesGap here there := by
  rw [commentRound, first?_seq] at h
  obtain ⟨mid, hmid, hfirst⟩ := List.exists_of_findSome?_eq_some h
  obtain ⟨u, hu, hrest⟩ := mem_ends_leading hmid
  refine SkipsBlanks.takesGap ⟨u, fun c hc => ?_, hrest⟩ (takesGap_of_first?_comment hfirst)
  rcases hu c hc with rfl | rfl <;> rfl

/-- A comment starts with two slashes, or with a slash and an asterisk. -/
lemma rest_of_mem_ends_comment (h : there ∈ comment.ends here) :
    ∃ c rest, here.rest = '/' :: c :: rest ∧ there.rest.length ≤ rest.length := by
  have hopen : ∃ c opened, opened ∈ (exactly ['/', c]).ends here ∧ opened.Reaches there := by
    rcases List.mem_append.1 h with h | h
    · obtain ⟨opened, hopened, h⟩ := mem_ends_sequence_cons.1 h
      exact ⟨'*', opened, hopened, reaches_of_mem_ends _ _ _ h⟩
    · obtain ⟨opened, hopened, h⟩ := mem_ends_sequence_cons.1 h
      exact ⟨'/', opened, hopened, reaches_of_mem_ends _ _ _ h⟩
  obtain ⟨c, opened, hopened, hreaches⟩ := hopen
  obtain ⟨rest, hrest, rfl⟩ := mem_ends_exactly.1 hopened
  exact ⟨c, rest, hrest, hreaches.length_le⟩

lemma length_lt_of_mem_ends_comment (h : there ∈ comment.ends here) :
    there.rest.length < here.rest.length := by
  obtain ⟨c, rest, hrest, hle⟩ := rest_of_mem_ends_comment h
  rw [hrest, List.length_cons, List.length_cons]
  omega

lemma length_lt_of_mem_ends_commentRound (h : there ∈ commentRound.ends here) :
    there.rest.length < here.rest.length := by
  obtain ⟨mid, hmid, hthere⟩ := List.mem_flatMap.1 h
  have hlt := length_lt_of_mem_ends_comment hthere
  have hle := (reaches_of_mem_ends _ _ _ hmid).length_le
  omega

lemma length_lt_of_mem_ends_commentRun (h : there ∈ commentRun.ends here) :
    there.rest.length < here.rest.length := by
  obtain ⟨mid, hmid, hthere⟩ := List.mem_flatMap.1 h
  have hlt := length_lt_of_mem_ends_commentRound hmid
  have hle := (reaches_of_mem_ends _ _ _ hthere).length_le
  omega

/-- Where the line ends no comment starts, with or without spaces before it. -/
lemma not_atLineEnd_of_mem_ends_commentRound (h : there ∈ commentRound.ends here) :
    ¬AtLineEnd here := by
  obtain ⟨mid, hmid, hthere⟩ := List.mem_flatMap.1 h
  obtain ⟨u, hu, hrest⟩ := mem_ends_leading hmid
  obtain ⟨c, rest, hslash, -⟩ := rest_of_mem_ends_comment hthere
  rw [hslash] at hrest
  -- What comes first is a space, a tab or a slash, and none of them ends a line.
  obtain ⟨d, tail, hd, hhere⟩ : ∃ d tail, (d = ' ' ∨ d = '\t' ∨ d = '/') ∧
      here.rest = d :: tail := by
    cases u with
    | nil => exact ⟨'/', c :: rest, .inr (.inr rfl), hrest⟩
    | cons d u =>
        exact ⟨d, _, (hu d List.mem_cons_self).imp_right .inl, hrest⟩
  rintro (hnil | ⟨b, rest', hb, hbreak⟩)
  · rw [hhere] at hnil
    cases hnil
  · rw [hhere] at hbreak
    rcases hb with rfl | rfl <;> cases hbreak <;> rcases hd with hd | hd | hd <;> cases hd

/-- Further comments of a run are gaps too. -/
lemma takesGap_of_first?_rounds (h : (many commentRound).first? here = some there) :
    there = here ∨ (TakesGap here there ∧ ¬AtLineEnd here) := by
  induction hn : here.rest.length using Nat.strongRecOn generalizing here with
  | ind n ih =>
      rw [first?_many fun next hnext => length_lt_of_mem_ends_commentRound hnext] at h
      cases hround : commentRound.first? here with
      | none =>
          rw [hround] at h
          exact .inl (Option.some_inj.1 h).symm
      | some next =>
          rw [hround] at h
          have hnext := mem_ends_of_first? hround
          have hlt := length_lt_of_mem_ends_commentRound hnext
          have hgap := takesGap_of_first?_commentRound hround
          have hgoesOn := not_atLineEnd_of_mem_ends_commentRound hnext
          rcases ih _ (hn ▸ hlt) h rfl with rfl | ⟨hrest, hmid⟩
          · exact .inr ⟨hgap, hgoesOn⟩
          · exact .inr ⟨hgap.trans hmid hrest, hgoesOn⟩

/-- **The first group of the pattern takes a gap.** -/
lemma takesGap_of_first?_commentRun (h : commentRun.first? here = some there) :
    TakesGap here there := by
  rw [commentRun_eq, first?_seq_of_total (first?_many_isSome commentRound),
    Option.bind_eq_some_iff] at h
  obtain ⟨next, hnext, hthere⟩ := h
  have hgap := takesGap_of_first?_commentRound hnext
  rcases takesGap_of_first?_rounds hthere with rfl | ⟨hrest, hmid⟩
  · exact hgap
  · exact hgap.trans hmid hrest

lemma first?_commentRun_isSome (h : there ∈ comment.ends here) :
    (commentRun.first? here).isSome := by
  have hround : there ∈ commentRound.ends here :=
    List.mem_flatMap.2 ⟨here, List.mem_append_right _ List.mem_cons_self, h⟩
  obtain ⟨next, hnext⟩ := Option.isSome_iff_exists.1 (first?_isSome hround)
  rw [commentRun_eq, first?_seq_of_total (first?_many_isSome commentRound), hnext]
  exact first?_many_isSome commentRound next

/-- The pattern has an end where the scan ends a block comment. -/
lemma exists_mem_ends_blockComment (hrest : here.rest = '/' :: '*' :: rest)
    (h : (blockEnd? rest 0).isSome) : ∃ there, there ∈ blockComment.ends here := by
  obtain ⟨closed, hclosed⟩ :=
    exists_mem_ends_blockTail (here.after ['/', '*'] rest) h
  obtain ⟨ordinary, hordinary, hclosed⟩ := mem_ends_sequence_cons.1 hclosed
  obtain ⟨stars, hstars, hclosed⟩ := mem_ends_sequence_cons.1 hclosed
  obtain ⟨rounds, hrounds, hclosed⟩ := List.mem_flatMap.1 hclosed
  refine ⟨closed, mem_ends_sequence_cons.2 ⟨_, mem_ends_exactly.2 ⟨rest, hrest, rfl⟩, ?_⟩⟩
  refine mem_ends_sequence_cons.2 ⟨ordinary, hordinary, ?_⟩
  refine mem_ends_sequence_cons.2 ⟨stars, hstars, ?_⟩
  refine mem_ends_sequence_cons.2 ⟨rounds, hrounds, ?_⟩
  refine mem_ends_sequence_cons.2 ⟨closed, hclosed, ?_⟩
  exact List.mem_append_right _ List.mem_cons_self

lemma exists_mem_ends_lineComment (hrest : here.rest = '/' :: '/' :: rest) :
    ∃ there, there ∈ lineComment.ends here := by
  obtain ⟨mid, there, -, -, hfirst, -⟩ :=
    exists_first?_lineTail (here.after ['/', '/'] rest) rfl rfl
  refine ⟨there, List.mem_flatMap.2 ⟨_, ?_, mem_ends_of_first? hfirst⟩⟩
  exact mem_ends_exactly.2 ⟨rest, hrest, rfl⟩

/-- Where the pattern finds no comment, neither does the scan. -/
lemma pieceAt_slash (h : commentRun.first? here = none) (hrest : here.rest = '/' :: rest) :
    pieceAt '/' rest = (.code '/', 0) := by
  have hnone : ∀ there, there ∉ comment.ends here := by
    intro there hthere
    have hsome := first?_commentRun_isSome hthere
    rw [h] at hsome
    cases hsome
  unfold pieceAt
  rw [if_neg (by decide), if_pos rfl]
  split
  · rename_i inner
    cases hend : blockEnd? inner 0 with
    | none => rfl
    | some n =>
        obtain ⟨there, hthere⟩ := exists_mem_ends_blockComment hrest (by rw [hend]; rfl)
        exact (hnone there (List.mem_append_left _ hthere)).elim
  · obtain ⟨there, hthere⟩ := exists_mem_ends_lineComment hrest
    exact (hnone there (List.mem_append_right _ hthere)).elim
  · rfl

/-! ### What stays -/

/-- The second group of the pattern. -/
def keptPart : Pattern :=
  firstOf (quotedSpan '"') [quotedSpan '\'', codeRun]

lemma pattern_eq : pattern = alt (group 1 commentRun) (group 2 keptPart) := rfl

/-- The pieces of a part of a text that stays: a quoted span, or characters of code. -/
def IsKept (u : Text) (ps : List Piece) : Prop :=
  ps = [.quoted u] ∨ ps = u.map .code

/-- A place that is reached from another by taking a part of the text that stays. -/
def TakesKept (here there : Cursor) : Prop :=
  ∃ u ps, u ≠ [] ∧ here.rest = u ++ there.rest ∧ pieces here.rest = ps ++ pieces there.rest ∧
    IsKept u ps

/-- A quoted span is one piece. -/
lemma takesKept_of_mem_ends_quotedSpan (hq : q = '"' ∨ q = '\'')
    (h : there ∈ (quotedSpan q).ends here) : TakesKept here there := by
  obtain ⟨opened, hopened, htail⟩ := List.mem_flatMap.1 h
  obtain ⟨rest, hrest, rfl⟩ := mem_ends_char.1 hopened
  have hne : q ≠ '\\' := by
    rintro rfl
    rcases hq with hq | hq <;> cases hq
  have hclosing : closing? q rest 0 = some (there.taken - (here.taken + 1)) :=
    closing?_zero (closing?_of_mem_ends_spanTail hne htail)
  have hleft : there.rest = rest.drop (there.taken - (here.taken + 1)) :=
    (reaches_of_mem_ends _ _ _ htail).rest_eq_drop
  refine ⟨_, [.quoted (q :: rest.take (there.taken - (here.taken + 1)))],
    List.cons_ne_nil _ _, ?_, ?_, .inl rfl⟩
  · rw [hrest, hleft, List.cons_append, List.take_append_drop]
  · rw [hrest, pieces_quoted hq hclosing, hleft]
    rfl

/-- Where the pattern finds no quoted span, neither does the scan. -/
lemma pieceAt_quote (hq : q = '"' ∨ q = '\'') (h : (quotedSpan q).first? here = none)
    (hrest : here.rest = q :: rest) : pieceAt q rest = (.code q, 0) := by
  cases hclosing : closing? q rest 0 with
  | none => simp only [pieceAt, if_pos hq, hclosing]
  | some n =>
      have hsome : (closing? q rest 0).isSome := by rw [hclosing]; rfl
      obtain ⟨there, hthere⟩ := exists_mem_ends_spanTail hsome (here.after [q] rest) rfl
      have hend : there ∈ (quotedSpan q).ends here :=
        List.mem_flatMap.2 ⟨_, mem_ends_char.2 ⟨rest, hrest, rfl⟩, hthere⟩
      have hfirst := first?_isSome hend
      rw [h] at hfirst
      cases hfirst

/-- Where no token starts, the pattern takes characters of code. -/
lemma takesKept_of_mem_ends_codeRun
    (hcode : ∀ c rest, here.rest = c :: rest → pieceAt c rest = (.code c, 0))
    (h : there ∈ codeRun.ends here) : TakesKept here there := by
  obtain ⟨mid, hmid, hthere⟩ := List.mem_flatMap.1 h
  have hfirst : ∃ u, u ≠ [] ∧ here.rest = u ++ mid.rest ∧
      pieces here.rest = u.map .code ++ pieces mid.rest := by
    rcases List.mem_append.1 hmid with hmid | hmid
    · obtain ⟨u, rest, hu, hrest, rfl⟩ := mem_ends_lineBreak.1 hmid
      refine ⟨u, by rcases hu with rfl | rfl <;> simp, hrest, ?_⟩
      rw [hrest]
      exact pieces_blanks (isBlank_of_lineBreak hu) rest
    · obtain ⟨c, rest, hrest, rfl⟩ := mem_ends_any.1 hmid
      refine ⟨[c], by simp, hrest, ?_⟩
      rw [hrest]
      exact pieces_code (hcode c rest hrest)
  obtain ⟨v, rest, hv, hrest, rfl⟩ := mem_ends_many_one.1 hthere
  obtain ⟨u, hu, hhere, hpieces⟩ := hfirst
  have hordinary : ∀ c ∈ v, ¬(c = '"' ∨ c = '\'') ∧ c ≠ '/' := by
    intro c hc
    have h := hv c hc
    simp only [Bool.not_eq_true', Bool.or_eq_false_iff, decide_eq_false_iff_not] at h
    exact ⟨not_or.2 ⟨h.1.1.1.2, h.1.1.2⟩, h.1.1.1.1⟩
  refine ⟨u ++ v, (u ++ v).map .code, by simp [hu], ?_, ?_, .inr rfl⟩
  · rw [hhere, hrest, List.append_assoc]
    rfl
  · rw [hpieces, hrest, pieces_append hordinary, List.map_append, List.append_assoc]
    rfl

/-- The second group of the pattern takes a quoted span or characters of code. -/
lemma takesKept_of_first?_keptPart (hrun : commentRun.first? here = none)
    (h : keptPart.first? here = some there) : TakesKept here there := by
  rw [keptPart, firstOf, firstOf, first?_alt, Option.or_eq_some_iff] at h
  rcases h with h | ⟨hdouble, h⟩
  · exact takesKept_of_mem_ends_quotedSpan (.inl rfl) (mem_ends_of_first? h)
  rw [firstOf, first?_alt, Option.or_eq_some_iff] at h
  rcases h with h | ⟨hsingle, h⟩
  · exact takesKept_of_mem_ends_quotedSpan (.inr rfl) (mem_ends_of_first? h)
  refine takesKept_of_mem_ends_codeRun (fun c rest hrest => ?_) (mem_ends_of_first? h)
  by_cases hquote : c = '"' ∨ c = '\''
  · rcases hquote with rfl | rfl
    · exact pieceAt_quote (.inl rfl) hdouble hrest
    · exact pieceAt_quote (.inr rfl) hsingle hrest
  · by_cases hslash : c = '/'
    · subst hslash
      exact pieceAt_slash hrun hrest
    · exact pieceAt_ordinary hquote hslash

lemma first?_keptPart_isSome (here : Cursor) (hrest : here.rest = c :: rest) :
    (keptPart.first? here).isSome := by
  have hrun : here.after [c] rest ∈ codeRun.ends here := by
    refine List.mem_flatMap.2 ⟨here.after [c] rest, ?_, mem_ends_many.2 (.inl rfl)⟩
    exact List.mem_append_right _ (mem_ends_any.2 ⟨c, rest, hrest, rfl⟩)
  exact first?_isSome (List.mem_append_right _ (List.mem_append_right _ hrun))

variable {before : Option Char}

/-- A run of comments is the match wherever there is one. -/
lemma found_of_commentRun (h : commentRun.first? (.start before (c :: rest)) = some there)
    (hrest : c :: rest = u ++ there.rest) :
    ∃ m : Match, m.text = u ∧ m.group? 2 = none ∧
      found pattern before (c :: rest) = .hit m :: found pattern there.before there.rest := by
  have hfirst : pattern.first? (.start before (c :: rest)) =
      some (there.close 1 (.start before (c :: rest))) := by
    rw [pattern_eq, first?_alt, first?_group, h]
    rfl
  have hend := mem_ends_of_first? h
  have htaken := (reaches_of_mem_ends _ _ _ hend).taken_eq hrest
  have hgroups : there.groups = [] := groups_of_mem_ends commentRun rfl _ there hend
  have hfound := found_of_first? hfirst (length_lt_of_mem_ends_commentRun hend)
  refine ⟨_, ?_, ?_, hfound⟩
  · show (c :: rest).take there.taken = u
    rw [hrest, List.take_left' (by rw [htaken]; exact (Nat.zero_add _).symm)]
  · show ((there.close 1 _).groups.lookup 2).map Span.text = none
    rw [Cursor.close, hgroups]
    rfl

/-- Where no comment starts, what the second group takes is the match. -/
lemma found_of_keptPart (hrun : commentRun.first? (.start before (c :: rest)) = none)
    (h : keptPart.first? (.start before (c :: rest)) = some there)
    (hrest : c :: rest = u ++ there.rest) (hu : u ≠ []) :
    ∃ m : Match, m.group? 2 = some u ∧
      found pattern before (c :: rest) = .hit m :: found pattern there.before there.rest := by
  have hfirst : pattern.first? (.start before (c :: rest)) =
      some (there.close 2 (.start before (c :: rest))) := by
    rw [pattern_eq, first?_alt, first?_group, hrun, first?_group, h]
    rfl
  have hlt : there.rest.length < (c :: rest).length := by
    have hpos := List.length_pos_iff.2 hu
    rw [hrest, List.length_append]
    omega
  have htaken := (reaches_of_mem_ends _ _ _ (mem_ends_of_first? h)).taken_eq hrest
  have hfound := found_of_first? hfirst hlt
  refine ⟨_, ?_, hfound⟩
  show some ((c :: rest).take (there.taken - 0)) = some u
  rw [hrest, List.take_left' (by rw [htaken]; exact (Nat.zero_add _).symm)]

/-- Segments of the pattern and pieces of the scan that are cut at the same places: a run of
comments is a gap, cut as it is alone, and everything else stays. -/
inductive Cuts : List Segment → List Piece → Prop
  | nil : Cuts [] []
  | gap {m : Match} {segments : List Segment} {ps : List Piece} (hgroup : m.group? 2 = none)
      (hgap : IsGap (pieces m.text)) (h : Cuts segments ps) :
      Cuts (.hit m :: segments) (pieces m.text ++ ps)
  | kept {m : Match} {u : Text} {segments : List Segment} {ps more : List Piece}
      (hgroup : m.group? 2 = some u) (hkept : IsKept u ps) (h : Cuts segments more) :
      Cuts (.hit m :: segments) (ps ++ more)

/-- **The pattern cuts a text where the scan does.** -/
theorem cuts_found (before : Option Char) (s : Text) :
    Cuts (found pattern before s) (pieces s) := by
  induction hn : s.length using Nat.strongRecOn generalizing s before with
  | ind n ih =>
      cases s with
      | nil =>
          rw [found, pieces_nil]
          exact .nil
      | cons c rest =>
          cases hrun : commentRun.first? (.start before (c :: rest)) with
          | some there =>
              have hlt := length_lt_of_mem_ends_commentRun (mem_ends_of_first? hrun)
              have hmore := ih _ (hn ▸ hlt) there.before there.rest rfl
              obtain ⟨u, hrest, hgap, hpieces, -⟩ := takesGap_of_first?_commentRun hrun
              obtain ⟨m, rfl, hgroup, hfound⟩ := found_of_commentRun hrun hrest
              change pieces (c :: rest) = pieces m.text ++ pieces there.rest at hpieces
              rw [hpieces, hfound]
              exact .gap hgroup hgap hmore
          | none =>
              obtain ⟨there, hthere⟩ := Option.isSome_iff_exists.1
                (first?_keptPart_isSome (.start before (c :: rest)) rfl)
              obtain ⟨u, ps, hu, hrest, hpieces, hkept⟩ :=
                takesKept_of_first?_keptPart hrun hthere
              obtain ⟨m, hgroup, hfound⟩ := found_of_keptPart hrun hthere hrest hu
              have hlt : there.rest.length < n := by
                have hpos := List.length_pos_iff.2 hu
                change c :: rest = u ++ there.rest at hrest
                rw [← hn, hrest, List.length_append]
                omega
              change pieces (c :: rest) = ps ++ pieces there.rest at hpieces
              rw [hpieces, hfound]
              exact .kept hgroup hkept (ih _ hlt there.before there.rest rfl)

end CallCensus.Comment
