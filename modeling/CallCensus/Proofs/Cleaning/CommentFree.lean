import CallCensus.Proofs.Cleaning.Protection

/-!
What is left of a text without its comments has no comments.

A comment that is removed leaves a space, which is no part of any marker, and what stays keeps its
order. So the only danger is a token that was left open. An open `/*` would need a `*/`, and the two
characters of one do not come together. An open quote would need its like outside the escapes, and
the escapes stay as they are: a comment ends with no backslash, unless the text ends there too, so
behind the space the reading goes on as it did behind the comment, whether or not a backslash before
the comment escapes what comes next.

* `Spaced`: a text and what is left when parts of it become spaces;
* `Spaced.closing?_eq_none`, `Spaced.blockEnd?_eq_none`: open tokens stay open;
* `spaced_of_rendered`: the removal of comments leaves such a text;
* `not_hidesComment_of_rendered`: in which the scan finds no comment;
* `matchesComment_iff`: neither does the pattern;
* `no_comment_left`: removing comments again, in either way, changes nothing.
-/

namespace CallCensus.Cleaning

open Comment Pattern

variable {c d quote : Char} {s t u v rest body out : Text} {n m : ℕ} {run ps : List Piece}

/-! ### Reading on behind a part of a text -/

lemma closing?_eq_none_iff : closing? quote s n = none ↔ closing? quote s 0 = none := by
  induction n with
  | zero => rfl
  | succ n ih => rw [closing?_succ, Option.map_eq_none_iff, ih]

lemma closing?_escape_eq_none_iff :
    closing? quote ('\\' :: c :: s) 0 = none ↔ closing? quote s 0 = none := by
  rw [closing?_escape, closing?_eq_none_iff]

lemma closing?_cons_eq_none_iff (hc : c ≠ '\\') :
    closing? quote (c :: s) 0 = none ↔ c ≠ quote ∧ closing? quote s 0 = none := by
  by_cases hcq : c = quote
  · subst hcq
    simp [closing?_quote hc]
  · rw [closing?_ordinary (by simp [hcq, hc]), closing?_eq_none_iff, and_iff_right hcq]

lemma lt_of_closing? (h : closing? quote s n = some m) : n < m := by
  fun_induction closing? quote s n with
  | case1 => cases h
  | case2 => cases h
  | case3 c rest n ih => exact Nat.lt_of_succ_lt (Nat.lt_of_succ_lt (ih h))
  | case4 rest n => exact Nat.lt_of_succ_le (Nat.le_of_eq (Option.some_inj.1 h))
  | case5 c rest n _ _ _ ih => exact Nat.lt_of_succ_lt (ih h)

/-- An open span is open behind a part of the text, unless that ends with a backslash. -/
lemma closing?_right_eq_none (hlast : u.getLast? ≠ some '\\')
    (h : closing? quote (u ++ s) n = none) : closing? quote s 0 = none := by
  fun_induction closing? quote u n with
  | case1 n => exact closing?_eq_none_iff.1 h
  | case2 n => exact absurd rfl hlast
  | case3 c rest n ih =>
      rw [List.cons_append, List.cons_append, closing?_escape] at h
      exact ih (fun hrest => hlast (by simp [List.getLast?_cons, hrest])) h
  | case4 rest n hend hescape =>
      rw [List.cons_append, closing?_quote (ne_backslash hend hescape)] at h
      cases h
  | case5 c rest n hend hescape hc ih =>
      rw [List.cons_append, closing?_ordinary (by simp [hc, ne_backslash hend hescape])] at h
      exact ih (fun hrest => hlast (by simp [List.getLast?_cons, hrest])) h

/-- Where a span is closed does not depend on what follows it. -/
lemma closing?_congr (h : closing? quote (body ++ v) n = some (n + body.length)) (w : Text) :
    closing? quote (body ++ w) n = some (n + body.length) := by
  fun_induction closing? quote body n with
  | case1 n =>
      have hlt := lt_of_closing? h
      rw [List.length_nil] at hlt
      omega
  | case2 n =>
      cases v with
      | nil => cases h
      | cons d v =>
          rw [List.singleton_append, closing?_escape] at h
          have hlt := lt_of_closing? h
          rw [List.length_singleton] at hlt
          omega
  | case3 c rest n ih =>
      have hlength : n + ('\\' :: c :: rest).length = n + 2 + rest.length := by
        simp only [List.length_cons]
        omega
      rw [List.cons_append, List.cons_append, closing?_escape, hlength] at h ⊢
      exact ih h
  | case4 rest n hend hescape =>
      have hquote : quote ≠ '\\' := ne_backslash hend hescape
      rw [List.cons_append, closing?_quote hquote] at h ⊢
      exact h
  | case5 c rest n hend hescape hc ih =>
      have hbackslash : c ≠ '\\' := ne_backslash hend hescape
      have hlength : n + (c :: rest).length = n + 1 + rest.length := by
        rw [List.length_cons]
        omega
      rw [List.cons_append, closing?_ordinary (by simp [hc, hbackslash]), hlength] at h ⊢
      exact ih h

lemma blockEnd?_eq_none_iff : blockEnd? s n = none ↔ blockEnd? s 0 = none := by
  induction n with
  | zero => rfl
  | succ n ih => rw [blockEnd?_succ, Option.map_eq_none_iff, ih]

/-- An open block comment is open behind any part of the text. -/
lemma blockEnd?_right_eq_none (h : blockEnd? (u ++ s) n = none) : blockEnd? s 0 = none := by
  induction u generalizing n with
  | nil => exact blockEnd?_eq_none_iff.1 h
  | cons c u ih =>
      rw [List.cons_append] at h
      refine ih (n := n + 1) ?_
      rw [blockEnd?] at h
      · exact h
      · rintro tail rfl heq
        rw [heq, blockEnd?] at h
        cases h

/-! ### Open tokens -/

/-- A text, and what is left of it when parts of it become one space each. A part that ends with a
backslash comes last. -/
inductive Spaced : Text → Text → Prop
  | nil : Spaced [] []
  | char (c : Char) {s t : Text} (h : Spaced s t) : Spaced (c :: s) (c :: t)
  | gap {u s t : Text} (hne : u ≠ []) (hlast : u.getLast? = some '\\' → s = [])
      (h : Spaced s t) : Spaced (u ++ s) (' ' :: t)

lemma Spaced.append (h : Spaced s t) (u : Text) : Spaced (u ++ s) (u ++ t) := by
  induction u with
  | nil => exact h
  | cons c u ih => exact .char c ih

lemma Spaced.eq_nil (h : Spaced s t) (hs : s = []) : t = [] := by
  cases h with
  | nil => rfl
  | char c h => cases hs
  | gap hne hlast h => exact absurd (List.append_eq_nil_iff.1 hs).1 hne

/-- **An open quoted span stays open**, at the start of a text and behind a backslash. -/
lemma Spaced.closing?_eq_none (h : Spaced s t) (hquote : quote ≠ ' ') :
    (closing? quote s 0 = none → closing? quote t 0 = none) ∧
      (closing? quote ('\\' :: s) 0 = none → closing? quote ('\\' :: t) 0 = none) := by
  induction h with
  | nil => exact ⟨id, id⟩
  | @char c s t h ih =>
      obtain ⟨ihStart, ihEscaped⟩ := ih
      refine ⟨fun hopen => ?_, fun hopen => ?_⟩
      · by_cases hc : c = '\\'
        · subst hc
          exact ihEscaped hopen
        · obtain ⟨hcq, hopen⟩ := (closing?_cons_eq_none_iff hc).1 hopen
          exact (closing?_cons_eq_none_iff hc).2 ⟨hcq, ihStart hopen⟩
      · exact closing?_escape_eq_none_iff.2 (ihStart (closing?_escape_eq_none_iff.1 hopen))
  | @gap u s t hne hlast h ih =>
      -- Behind the gap the reading is where it is behind the space, whatever comes before them.
      have hbehind : ∀ x : Text, closing? quote (x ++ u ++ s) 0 = none → closing? quote t 0 = none := by
        intro x hopen
        by_cases hs : s = []
        · rw [h.eq_nil hs]
          rfl
        · refine ih.1 (closing?_right_eq_none ?_ hopen)
          rw [List.getLast?_append, List.getLast?_eq_some_getLast hne, Option.some_or,
            ← List.getLast?_eq_some_getLast hne]
          exact fun h' => hs (hlast h')
      refine ⟨fun hopen => ?_, fun hopen => ?_⟩
      · exact (closing?_cons_eq_none_iff (by decide)).2 ⟨hquote.symm, hbehind [] hopen⟩
      · exact closing?_escape_eq_none_iff.2 (hbehind ['\\'] hopen)

/-- **An open block comment stays open**, at the start of a text and behind an asterisk. -/
lemma Spaced.blockEnd?_eq_none (h : Spaced s t) :
    (blockEnd? s 0 = none → blockEnd? t 0 = none) ∧
      (blockEnd? ('*' :: s) 0 = none → blockEnd? ('*' :: t) 0 = none) := by
  induction h with
  | nil => exact ⟨id, id⟩
  | @char c s t h ih =>
      obtain ⟨ihStart, ihStar⟩ := ih
      have hstart : blockEnd? (c :: s) 0 = none → blockEnd? (c :: t) 0 = none := by
        intro hopen
        by_cases hc : c = '*'
        · subst hc
          exact ihStar hopen
        · rw [blockEnd?_ordinary hc, blockEnd?_eq_none_iff] at hopen ⊢
          exact ihStart hopen
      refine ⟨hstart, fun hopen => ?_⟩
      by_cases hc : c = '/'
      · subst hc
        cases hopen
      · rw [blockEnd?_star hc, blockEnd?_eq_none_iff] at hopen ⊢
        exact hstart hopen
  | @gap u s t hne hlast h ih =>
      have hbehind : ∀ x : Text, blockEnd? (x ++ u ++ s) 0 = none →
          blockEnd? (' ' :: t) 0 = none := by
        intro x hopen
        rw [blockEnd?_ordinary (by decide), blockEnd?_eq_none_iff]
        exact ih.1 (blockEnd?_right_eq_none hopen)
      refine ⟨hbehind [], fun hopen => ?_⟩
      rw [blockEnd?_star (by decide), blockEnd?_eq_none_iff]
      exact hbehind ['*'] hopen

lemma Spaced.of_cons (h : Spaced s (d :: t)) (hd : d ≠ ' ') : ∃ s', s = d :: s' ∧ Spaced s' t := by
  cases h with
  | @char _ s' _ h => exact ⟨s', rfl, h⟩
  | gap => exact absurd rfl hd

/-! ### Characters that start no token -/

/-- A character that starts no token before `rest`. -/
structure StartsNothing (c : Char) (rest : Text) : Prop where
  span : c = '"' ∨ c = '\'' → closing? c rest 0 = none
  line : c = '/' → ∀ inner, rest ≠ '/' :: inner
  block : c = '/' → ∀ inner, rest = '*' :: inner → blockEnd? inner 0 = none

lemma StartsNothing.pieceAt_eq (h : StartsNothing c rest) : pieceAt c rest = (.code c, 0) := by
  by_cases hquote : c = '"' ∨ c = '\''
  · simp only [pieceAt, if_pos hquote, h.span hquote]
  by_cases hc : c = '/'
  · subst hc
    unfold pieceAt
    rw [if_neg hquote, if_pos rfl]
    split
    · rw [h.block rfl _ rfl]
    · exact absurd rfl (h.line rfl _)
    · rfl
  · exact pieceAt_ordinary hquote hc

lemma startsNothing_of_pieceAt (h : (pieceAt c rest).1 = .code d) : StartsNothing c rest := by
  refine ⟨fun hquote => ?_, ?_, ?_⟩
  · simp only [pieceAt, if_pos hquote] at h
    split at h
    · cases h
    · assumption
  · rintro rfl inner rfl
    cases h
  · rintro rfl inner rfl
    cases hblock : blockEnd? inner 0 with
    | none => rfl
    | some n => simp [pieceAt, hblock] at h

/-- **A character that starts no token starts none when parts behind it become spaces.** -/
lemma StartsNothing.spaced (h : StartsNothing c s) (hst : Spaced s t) : StartsNothing c t := by
  refine ⟨fun hquote => ?_, ?_, ?_⟩
  · have hne : c ≠ ' ' := by rcases hquote with rfl | rfl <;> decide
    exact (hst.closing?_eq_none hne).1 (h.span hquote)
  · rintro hc inner rfl
    obtain ⟨s', rfl, -⟩ := hst.of_cons (by decide)
    exact h.line hc s' rfl
  · rintro hc inner rfl
    obtain ⟨s', rfl, hinner⟩ := hst.of_cons (by decide)
    exact hinner.blockEnd?_eq_none.1 (h.block hc s' rfl)

/-! ### The ends of comments -/

/-- A block comment ends with its closing marker. -/
lemma exists_body_of_blockEnd? (h : blockEnd? s n = some m) :
    ∃ body rest, s = body ++ '*' :: '/' :: rest ∧ m = n + body.length + 2 := by
  fun_induction blockEnd? s n with
  | case1 => cases h
  | case2 rest n => exact ⟨[], rest, rfl, (Option.some_inj.1 h).symm⟩
  | case3 c rest n _ ih =>
      obtain ⟨body, left, rfl, rfl⟩ := ih h
      refine ⟨c :: body, left, rfl, ?_⟩
      rw [List.length_cons]
      omega

/-- A line comment that takes nothing stands where the line ends. -/
lemma endsLine_of_lineEnd (h : lineEnd s n = n) : EndsLine s := by
  fun_cases lineEnd s n with
  | case1 => exact .inl rfl
  | case2 rest =>
      have hle := le_lineEnd rest (n + 3)
      rw [lineEnd] at h
      omega
  | case3 rest =>
      have hle := le_lineEnd rest (n + 2)
      rw [lineEnd] at h
      omega
  | case4 rest => exact .inr (.inl ⟨rest, rfl⟩)
  | case5 rest => exact .inr (.inr ⟨rest, rfl⟩)
  | case6 c rest _ hreturn hfeed hnotFeed hnotReturn =>
      have hle := le_lineEnd rest (n + 1)
      rw [lineEnd.eq_6 _ _ _ hreturn hfeed hnotFeed hnotReturn] at h
      omega

/-- A line comment ends with a backslash only where the text ends. -/
lemma exists_body_of_lineEnd (s : Text) (n : ℕ) :
    ∃ body rest, s = body ++ rest ∧ lineEnd s n = n + body.length ∧
      (body.getLast? = some '\\' → rest = []) := by
  fun_induction lineEnd s n with
  | case1 n => exact ⟨[], [], rfl, rfl, fun _ => rfl⟩
  | case2 rest n ih =>
      obtain ⟨body, left, rfl, hlength, hlast⟩ := ih
      refine ⟨'\\' :: '\r' :: '\n' :: body, left, rfl, ?_, fun h => hlast ?_⟩
      · rw [hlength]
        simp only [List.length_cons]
        omega
      · cases body with
        | nil => cases h
        | cons d body => exact h
  | case3 rest n ih =>
      obtain ⟨body, left, rfl, hlength, hlast⟩ := ih
      refine ⟨'\\' :: '\n' :: body, left, rfl, ?_, fun h => hlast ?_⟩
      · rw [hlength]
        simp only [List.length_cons]
        omega
      · cases body with
        | nil => cases h
        | cons d body => exact h
  | case4 rest n => exact ⟨[], _, rfl, rfl, fun h => by cases h⟩
  | case5 rest n => exact ⟨[], _, rfl, rfl, fun h => by cases h⟩
  | case6 c rest n hreturn hfeed hnotFeed hnotReturn ih =>
      obtain ⟨body, left, rfl, hlength, hlast⟩ := ih
      refine ⟨c :: body, left, rfl, ?_, fun h => ?_⟩
      · rw [hlength, List.length_cons]
        omega
      · cases body with
        | nil =>
            -- A backslash takes the line break behind it along, so there is none.
            obtain rfl : c = '\\' := Option.some_inj.1 h
            rcases endsLine_of_lineEnd hlength with hnil | ⟨tail, hbreak⟩ | ⟨tail, hbreak⟩
            · exact hnil
            · exact (hfeed tail rfl hbreak).elim
            · exact (hreturn tail rfl hbreak).elim
        | cons d body => exact hlast h

/-- **A comment ends with no backslash, unless the text ends with it.** -/
lemma drop_eq_nil_of_getLast? (h : (pieceAt c rest).1 = .comment body)
    (hlast : body.getLast? = some '\\') : rest.drop (pieceAt c rest).2 = [] := by
  obtain ⟨rfl, ⟨d, inner, rfl | rfl, rfl⟩, -⟩ := of_pieceAt_comment h
  · obtain ⟨line, left, rfl, hlength, hline⟩ := exists_body_of_lineEnd inner 0
    have hpiece : pieceAt '/' ('/' :: (line ++ left)) =
        (.comment ('/' :: '/' :: line), line.length + 1) := by
      simp [pieceAt, hlength]
    rw [hpiece] at h ⊢
    cases h
    rw [List.drop_succ_cons, List.drop_left]
    refine hline ?_
    cases line with
    | nil => cases hlast
    | cons d line => exact hlast
  · cases hblock : blockEnd? inner 0 with
    | none => simp [pieceAt, hblock] at h
    | some n =>
        obtain ⟨block, left, rfl, rfl⟩ := exists_body_of_blockEnd? hblock
        have hcut : block ++ '*' :: '/' :: left = (block ++ ['*', '/']) ++ left := by simp
        have htake : (block ++ '*' :: '/' :: left).take (0 + block.length + 2) =
            block ++ ['*', '/'] := by
          rw [hcut, List.take_left' (by simp)]
        simp only [pieceAt, hblock] at h
        cases h
        rw [List.take_succ_cons, htake] at hlast
        simp [List.getLast?_cons] at hlast

/-! ### What is left -/

/-- Pieces as the scan cuts them. -/
def IsCut (ps : List Piece) : Prop :=
  pieces (ps.flatMap Piece.source) = ps

lemma isCut_pieces (s : Text) : IsCut (pieces s) := by
  rw [IsCut, source_pieces]

/-- The last of them are the pieces of what they have together. -/
lemma IsCut.of_append (h : IsCut (run ++ ps)) : IsCut ps :=
  Text.pieces_flatMap_of_append source_pieceAt h

lemma IsCut.tail {piece : Piece} (h : IsCut (piece :: ps)) : IsCut ps := by
  rw [← List.singleton_append] at h
  exact h.of_append

/-- The first of them starts the text. -/
lemma IsCut.exists_pieceAt {piece : Piece} (h : IsCut (piece :: ps)) :
    ∃ c rest, (piece :: ps).flatMap Piece.source = c :: rest ∧ (pieceAt c rest).1 = piece ∧
      pieces (rest.drop (pieceAt c rest).2) = ps := by
  rw [IsCut] at h
  cases htext : (piece :: ps).flatMap Piece.source with
  | nil =>
      rw [htext, pieces_nil] at h
      cases h
  | cons c rest =>
      rw [htext, pieces_cons, List.cons.injEq] at h
      exact ⟨c, rest, rfl, h.1, h.2⟩

/-- A gap leaves something, and ends with no backslash, unless the text ends with it. -/
lemma source_ne_nil_of_isGap (hrun : IsGap run) (hs : IsCut (run ++ ps)) :
    run.flatMap Piece.source ≠ [] ∧
      ((run.flatMap Piece.source).getLast? = some '\\' → ps = []) := by
  obtain ⟨marked, hmarked⟩ := hrun.comment
  have hconcat := (List.eq_nil_or_concat run).resolve_left (List.ne_nil_of_mem hmarked)
  obtain ⟨first, piece, hconcat⟩ := hconcat
  rw [List.concat_eq_append] at hconcat
  subst hconcat
  rw [List.append_assoc, List.singleton_append] at hs
  obtain ⟨c, rest, -, hpiece, hps⟩ := hs.of_append.exists_pieceAt
  rw [List.flatMap_append, List.flatMap_singleton]
  rcases hrun.blank piece (by simp) with ⟨body, rfl⟩ | ⟨d, hblank, rfl⟩
  · obtain ⟨-, -, htwo⟩ := of_pieceAt_comment hpiece
    have hne : body ≠ [] := List.ne_nil_of_length_pos (by omega)
    rw [Piece.source, List.getLast?_append, List.getLast?_eq_some_getLast hne, Option.some_or,
      ← List.getLast?_eq_some_getLast hne]
    refine ⟨List.append_ne_nil_of_right_ne_nil _ hne, fun hlast => ?_⟩
    rw [← hps, drop_eq_nil_of_getLast? hpiece hlast, pieces_nil]
  · rw [Piece.source, List.getLast?_concat]
    refine ⟨List.append_ne_nil_of_right_ne_nil _ (List.cons_ne_nil d []), fun hlast => ?_⟩
    obtain rfl := Option.some_inj.1 hlast
    cases hblank

/-- **The removal of comments leaves a text with spaces in place of some of its parts**, none of
which ends with a backslash before anything else. -/
lemma spaced_of_rendered (h : Rendered ps out) (hs : IsCut ps) :
    Spaced (ps.flatMap Piece.source) out := by
  induction h with
  | nil => exact .nil
  | code c h ih => exact .char c (ih hs.tail)
  | quoted u h ih =>
      rw [List.flatMap_cons]
      exact (ih hs.tail).append u
  | gap hrun h ih =>
      obtain ⟨hne, hlast⟩ := source_ne_nil_of_isGap hrun hs
      rw [List.flatMap_append]
      refine .gap hne (fun h' => ?_) (ih hs.of_append)
      rw [hlast h']
      rfl

/-- A quoted span hides no comment, whatever follows it. -/
lemma hidesComment_quoted_append (h : (pieceAt c rest).1 = .quoted u) (out : Text) :
    HidesComment (u ++ out) ↔ HidesComment out := by
  have hquote : c = '"' ∨ c = '\'' := by
    by_contra hquote
    by_cases hc : c = '/'
    · subst hc
      unfold pieceAt at h
      rw [if_neg hquote, if_pos rfl] at h
      split at h
      · split at h <;> cases h
      · cases h
      · cases h
    · rw [pieceAt_ordinary hquote hc] at h
      cases h
  cases hclosing : closing? c rest 0 with
  | none =>
      simp only [pieceAt, if_pos hquote, hclosing] at h
      cases h
  | some n =>
      simp only [pieceAt, if_pos hquote, hclosing, Piece.quoted.injEq] at h
      subst h
      have hle : n ≤ rest.length := by simpa using le_of_closing? hclosing
      have hlength : (rest.take n).length = n := List.length_take_of_le hle
      have hspan : closing? c (rest.take n ++ rest.drop n) 0 = some (0 + (rest.take n).length) := by
        rw [List.take_append_drop, hclosing, hlength, Nat.zero_add]
      have hspan' := closing?_congr hspan out
      rw [Nat.zero_add] at hspan'
      rw [List.cons_append, HidesComment, HidesComment, pieces_quoted hquote hspan',
        List.drop_left]
      simp

/-- **In what is left the scan finds no comment.** -/
lemma not_hidesComment_of_rendered (h : Rendered ps out) (hs : IsCut ps) : ¬HidesComment out := by
  induction h with
  | nil => exact not_hidesComment_nil
  | @code c ps out h ih =>
      obtain ⟨d, rest, htext, hpiece, -⟩ := hs.exists_pieceAt
      obtain ⟨rfl, rfl⟩ := List.cons.inj htext
      have hcode := (startsNothing_of_pieceAt hpiece).spaced (spaced_of_rendered h hs.tail)
      rw [hidesComment_cons, hcode.pieceAt_eq]
      rintro (⟨body, hbody⟩ | hout)
      · cases hbody
      · exact ih hs.tail hout
  | quoted u h ih =>
      obtain ⟨c, rest, -, hpiece, -⟩ := hs.exists_pieceAt
      exact fun hout => ih hs.tail ((hidesComment_quoted_append hpiece _).1 hout)
  | gap hrun h ih =>
      have hplain : IsPlain [' '] := by simp [IsPlain]
      exact fun hout => ih hs.of_append ((hidesComment_plain_append hplain _).1 hout)

/-! ### Both ways to find comments -/

/-- A text in which the pattern finds a comment. -/
def MatchesComment (s : Text) : Prop :=
  ∃ m, .hit m ∈ found pattern none s ∧ m.group? 2 = none

/-- Where the pattern cuts a text as the scan does, they find comments together. -/
lemma exists_hit_iff_of_cuts {segments : List Segment} (h : Cuts segments ps) :
    (∃ m, .hit m ∈ segments ∧ m.group? 2 = none) ↔ ∃ body, Piece.comment body ∈ ps := by
  induction h with
  | nil => simp
  | gap hgroup hgap h ih =>
      obtain ⟨body, hbody⟩ := hgap.comment
      exact iff_of_true ⟨_, List.mem_cons_self, hgroup⟩ ⟨body, List.mem_append_left _ hbody⟩
  | @kept m u segments ps more hgroup hkept h ih =>
      have hps : ∀ body, Piece.comment body ∉ ps := by
        rcases hkept with rfl | rfl <;> simp
      simp only [List.mem_cons, List.mem_append, hps, false_or, ← ih]
      constructor
      · rintro ⟨other, heq | hmem, hnone⟩
        · cases heq
          rw [hgroup] at hnone
          cases hnone
        · exact ⟨other, hmem, hnone⟩
      · rintro ⟨other, hmem, hnone⟩
        exact ⟨other, .inr hmem, hnone⟩

/-- **The pattern finds a comment where the scan does.** -/
lemma matchesComment_iff (s : Text) : MatchesComment s ↔ HidesComment s :=
  exists_hit_iff_of_cuts (cuts_found none s)

/-- **The removal of comments leaves none.** What either way to remove comments leaves has no
comment for the scan and none for the pattern. So removing comments again leaves it as it is: by the
scan, by every search that does not give up, by the matches of the pattern, and whatever the
limit. -/
theorem no_comment_left (s out : Text) (h : CommentsRemoved s out) :
    ¬HidesComment out ∧ ¬MatchesComment out ∧
      (∀ again, CommentsRemoved out again → again = out) ∧
      (found pattern none out).flatMap segmentKept = out ∧
      ∀ limit, Comment.strip limit out = out := by
  have hnone : ¬HidesComment out :=
    not_hidesComment_of_rendered (rendered_of_commentsRemoved h) (isCut_pieces s)
  have hagain : ∀ again, CommentsRemoved out again → again = out :=
    fun again hremoved => (eq_iff_not_hidesComment hremoved).2 hnone
  refine ⟨hnone, ?_, hagain, ?_, fun limit => hagain _ (commentsRemoved_strip limit out)⟩
  · rwa [matchesComment_iff]
  · rw [eq_flatMap_source_of_rendered (cuts_found none out).rendered fun b hb => hnone ⟨b, hb⟩,
      source_pieces]

/-- A text with tokens left open on both sides of its comments: a quote and a backslash before
them, an opening marker behind. An apostrophe and the line break are part of what is removed. -/
def openTokens : Text :=
  ['"', '\\', '/', '*', '\'', '*', '/', '/', '/', 'b', '\n', '/', '*']

/-- The patterns clean it, and what they leave is left alone by both ways. -/
theorem no_comment_left_openTokens :
    Comment.stripByPattern? 40 openTokens = some ['"', '\\', ' ', '/', '*'] ∧
      Comment.stripByPattern? 40 ['"', '\\', ' ', '/', '*'] = some ['"', '\\', ' ', '/', '*'] ∧
      ∀ limit, Comment.strip limit ['"', '\\', ' ', '/', '*'] = ['"', '\\', ' ', '/', '*'] := by
  have hfirst : Comment.stripByPattern? 40 openTokens = some ['"', '\\', ' ', '/', '*'] := by
    decide +kernel
  have hsecond : ∃ again, Comment.stripByPattern? 40 ['"', '\\', ' ', '/', '*'] = some again :=
    Option.isSome_iff_exists.1 (by decide +kernel)
  obtain ⟨again, hagain⟩ := hsecond
  obtain ⟨-, -, hremoved, -, hstrip⟩ := no_comment_left openTokens _ (.inr ⟨40, hfirst⟩)
  obtain rfl := hremoved again (.inr ⟨40, hagain⟩)
  exact ⟨hfirst, hagain, hstrip⟩

end CallCensus.Cleaning
