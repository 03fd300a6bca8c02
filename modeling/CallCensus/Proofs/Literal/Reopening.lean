import CallCensus.Proofs.Literal.Lines

/-!
What is left of a text may have literals of its own.

A quote that is left open has been read on to the end of its line, past the literals that are
removed. A backslash right before such a literal escapes the quote that opens it, as far as that
reading goes; when the literal is gone, it escapes what comes behind. Where that is a backslash
too, the character after it is escaped no longer, and if it is the open quote, this is closed now.
Nothing else can close it: behind any other character the reading goes on as before.

* `QuotesStayOpen`: no open quote is closed when the literals behind it are gone;
* `stripByScan_twice_iff`: then, and only then, does removing literals again change nothing;
* `JoinsBackslashes`, `StaysOpen`: two backslashes that come together, and what holds without
  them;
* `quotesStayOpen_of_not_joins`: without them all open quotes stay open;
* `strip_twice_iff`: the same for both ways to remove literals;
* `strip_twice_ne`: a text of which more is removed the second time.
-/

namespace CallCensus.Literal

variable {quote c : Char} {s t u : Text} {n : ℕ} {piece : Piece} {ps : List Piece}

/-! ### Texts without literals -/

/-- No quote among some pieces is closed by what is left behind it. -/
def QuotesStayOpen (ps : List Piece) : Prop :=
  ∀ before quote after, ps = before ++ .code quote :: after → isQuote quote = true →
    closing? quote (after.flatMap Piece.kept) 0 = none

lemma quotesStayOpen_nil : QuotesStayOpen [] := by
  intro before quote after h
  cases before <;> cases h

/-- The first piece has to stay open, if it is a quote, and so have the others. -/
lemma quotesStayOpen_cons :
    QuotesStayOpen (piece :: ps) ↔
      (∀ quote, piece = .code quote → isQuote quote = true →
        closing? quote (ps.flatMap Piece.kept) 0 = none) ∧ QuotesStayOpen ps := by
  constructor
  · intro h
    refine ⟨fun quote hpiece => h [] quote ps (by rw [hpiece]; rfl), ?_⟩
    intro before quote after hps
    exact h (piece :: before) quote after (by rw [hps]; rfl)
  · rintro ⟨hpiece, hps⟩ before quote after h
    cases before with
    | nil =>
        rw [List.nil_append, List.cons.injEq] at h
        obtain ⟨rfl, rfl⟩ := h
        exact hpiece quote rfl
    | cons first before =>
        rw [List.cons_append, List.cons.injEq] at h
        exact hps before quote after h.2

/-- A text has no literals if no quote is closed at its start and there are none behind it. -/
lemma stripByScan_cons_eq_iff :
    stripByScan (c :: s) = c :: s ↔
      (isQuote c = true → closing? c s 0 = none) ∧ stripByScan s = s := by
  constructor
  · intro h
    have hcode : isQuote c = true → closing? c s 0 = none := by
      intro hquote
      rw [Option.eq_none_iff_forall_ne_some]
      intro n hn
      rw [stripByScan_literal hquote hn] at h
      have hle := (stripByScan_sublist (s.drop n)).length_le
      rw [h, List.length_cons, List.length_drop] at hle
      omega
    rw [stripByScan_code hcode, List.cons.injEq] at h
    exact ⟨hcode, h.2⟩
  · rintro ⟨hcode, hs⟩
    rw [stripByScan_code hcode, hs]

/-- **What stays of some pieces has no literals if and only if their quotes stay open.** -/
lemma stripByScan_kept_eq_iff (ps : List Piece) :
    stripByScan (ps.flatMap Piece.kept) = ps.flatMap Piece.kept ↔ QuotesStayOpen ps := by
  induction ps with
  | nil => exact iff_of_true stripByScan_nil quotesStayOpen_nil
  | cons piece ps ih =>
      rw [quotesStayOpen_cons, ← ih, List.flatMap_cons]
      cases piece with
      | code c =>
          rw [Piece.kept, List.singleton_append, stripByScan_cons_eq_iff]
          simp
      | literal u => simp [Piece.kept]

/-- **Removing literals again changes nothing if and only if the open quotes stay open.** -/
lemma stripByScan_twice_iff (s : Text) :
    stripByScan (stripByScan s) = stripByScan s ↔ QuotesStayOpen (pieces s) :=
  stripByScan_kept_eq_iff (pieces s)

/-! ### Reading past a literal -/

lemma closing?_eq_none_iff : closing? quote s n = none ↔ closing? quote s 0 = none := by
  induction n with
  | zero => rfl
  | succ n ih => rw [closing?_succ, Option.map_eq_none_iff, ih]

/-- A quote that stays open before a part of a line stays open behind it, unless the part ends
with a backslash. -/
lemma closing?_right_eq_none (hfeed : '\n' ∉ u) (hlast : u.getLast? ≠ some '\\')
    (h : closing? quote (u ++ s) n = none) : closing? quote s 0 = none := by
  fun_induction closing? quote u n with
  | case1 n => exact closing?_eq_none_iff.1 h
  | case2 rest n =>
      rw [List.cons_append, closing?_quote] at h
      cases h
  | case3 rest n => exact absurd List.mem_cons_self hfeed
  | case4 n => exact absurd rfl hlast
  | case5 n rest => exact absurd (List.mem_cons_of_mem _ List.mem_cons_self) hfeed
  | case6 n escaped rest hescaped hbackslash _ ih =>
      rw [List.cons_append, List.cons_append, closing?_backslash hbackslash hescaped] at h
      refine ih (fun hmem => hfeed (by simp [hmem])) (fun hrest => hlast ?_) h
      simp [List.getLast?_cons, hrest]
  | case7 c rest n hc hnewline hbackslash ih =>
      rw [List.cons_append, closing?_cons hc hnewline hbackslash] at h
      refine ih (fun hmem => hfeed (List.mem_cons_of_mem c hmem)) (fun hrest => hlast ?_) h
      simp [List.getLast?_cons, hrest]

/-- Pieces of which the literals lie on one line and end with their quote. -/
def LiteralsEnd (ps : List Piece) : Prop :=
  ∀ u, .literal u ∈ ps → '\n' ∉ u ∧ u ≠ [] ∧ u.getLast? ≠ some '\\'

/-- The literals of a text are of this kind. -/
lemma literalsEnd_pieces (s : Text) : LiteralsEnd (pieces s) := by
  induction s using pieces_induction with
  | nil =>
      intro u hu
      rw [pieces_nil] at hu
      cases hu
  | literal c body rest hquote hfeed hclosing ih =>
      rw [pieces_literal_append hquote hclosing]
      intro u hu
      rcases List.mem_cons.1 hu with hu | hu
      · cases hu
        have hnewline := (ne_newline_of_isQuote hquote).symm
        refine ⟨by simp [hfeed, hnewline], List.cons_ne_nil _ _, ?_⟩
        rw [← List.cons_append, List.getLast?_concat]
        simpa using (backslash_ne hquote).symm
      · exact ih u hu
  | code c rest hopen ih =>
      rw [pieces_code hopen]
      intro u hu
      exact ih u ((List.mem_cons.1 hu).resolve_left (by simp))

lemma closing?_of_pieces_eq {before after : List Piece}
    (h : pieces s = before ++ .code quote :: after) (hquote : isQuote quote = true) :
    closing? quote (after.flatMap Piece.source) 0 = none := by
  have hpieces := Text.pieces_flatMap_of_append source_pieceAt h
  change pieces (quote :: after.flatMap Piece.source) = .code quote :: after at hpieces
  rw [Option.eq_none_iff_forall_ne_some]
  intro n hn
  rw [pieces_literal hquote hn] at hpieces
  cases hpieces

/-! ### Backslashes that come together -/

/-- Pieces that are all literals. -/
def AllLiterals (ps : List Piece) : Prop :=
  ∀ piece ∈ ps, ∃ u, piece = .literal u

/-- When the literals are gone, a backslash comes first. -/
def StartsWithBackslash (ps : List Piece) : Prop :=
  ∃ literals after, ps = literals ++ .code '\\' :: after ∧ AllLiterals literals

/-- On their first line some pieces have literals right between two backslashes. -/
def JoinsBackslashes (ps : List Piece) : Prop :=
  ∃ inside u after, ps = inside ++ .code '\\' :: .literal u :: after ∧
    .code '\n' ∉ inside ∧ StartsWithBackslash after

/-- Behind a quote that a text leaves open, and on its line, there are literals right between two
backslashes. -/
def JoinsBehindQuote (s : Text) : Prop :=
  ∃ before quote after, pieces s = before ++ .code quote :: after ∧ isQuote quote = true ∧
    JoinsBackslashes after

lemma JoinsBackslashes.cons (hpiece : piece ≠ .code '\n') (h : JoinsBackslashes ps) :
    JoinsBackslashes (piece :: ps) := by
  obtain ⟨inside, u, after, rfl, hfeed, hafter⟩ := h
  exact ⟨piece :: inside, u, after, rfl, by simp [hfeed, Ne.symm hpiece], hafter⟩

lemma StartsWithBackslash.cons_literal (h : StartsWithBackslash ps) (u : Text) :
    StartsWithBackslash (.literal u :: ps) := by
  obtain ⟨literals, after, rfl, hall⟩ := h
  exact ⟨.literal u :: literals, after, rfl, List.forall_mem_cons.2 ⟨⟨u, rfl⟩, hall⟩⟩

/-- How an open quote fares when literals are removed behind it: with the reading at the same place
before and after, behind a backslash in both, and behind a backslash only afterwards. -/
structure StaysOpen (quote : Char) (ps : List Piece) : Prop where
  /-- The quote stays open unless backslashes come together. -/
  level : ¬JoinsBackslashes ps → closing? quote (ps.flatMap Piece.source) 0 = none →
    closing? quote (ps.flatMap Piece.kept) 0 = none
  /-- The same behind a backslash. -/
  escaped : ¬JoinsBackslashes (.code '\\' :: ps) →
    closing? quote ('\\' :: ps.flatMap Piece.source) 0 = none →
      closing? quote ('\\' :: ps.flatMap Piece.kept) 0 = none
  /-- The same behind a backslash from which a literal has been removed. -/
  drawn : ¬JoinsBackslashes ps → ¬StartsWithBackslash ps →
    closing? quote (ps.flatMap Piece.source) 0 = none →
      closing? quote ('\\' :: ps.flatMap Piece.kept) 0 = none

lemma closing?_escaped_eq_none_iff (hquote : isQuote quote = true) (hc : c ≠ '\n') :
    closing? quote ('\\' :: c :: s) 0 = none ↔ closing? quote s 0 = none := by
  rw [closing?_backslash (backslash_ne hquote) hc, closing?_eq_none_iff]

lemma closing?_cons_eq_none_iff (hc : c ≠ '\n') (hbackslash : c ≠ '\\') :
    closing? quote (c :: s) 0 = none ↔ c ≠ quote ∧ closing? quote s 0 = none := by
  by_cases hcq : c = quote
  · subst hcq
    simp [closing?_quote]
  · rw [closing?_cons hcq hc hbackslash, closing?_eq_none_iff, and_iff_right hcq]

/-- A character of code. -/
lemma StaysOpen.code (hquote : isQuote quote = true) (h : StaysOpen quote ps) (c : Char) :
    StaysOpen quote (.code c :: ps) := by
  have hnewline := (ne_newline_of_isQuote hquote).symm
  by_cases hfeed : c = '\n'
  · subst hfeed
    exact ⟨fun _ _ => closing?_newline hnewline,
      fun _ _ => closing?_backslash_newline hquote _ 0,
      fun _ _ _ => closing?_backslash_newline hquote _ 0⟩
  have hjoins : ¬JoinsBackslashes (.code c :: ps) → ¬JoinsBackslashes ps :=
    mt (JoinsBackslashes.cons (by simpa using hfeed))
  refine ⟨fun hnot hopen => ?_, fun hnot hopen => ?_, fun hnot hstarts hopen => ?_⟩
  · by_cases hbackslash : c = '\\'
    · subst hbackslash
      exact h.escaped hnot hopen
    · obtain ⟨hc, hopen⟩ := (closing?_cons_eq_none_iff hfeed hbackslash).1 hopen
      exact (closing?_cons_eq_none_iff hfeed hbackslash).2 ⟨hc, h.level (hjoins hnot) hopen⟩
  · have hnot' : ¬JoinsBackslashes (.code c :: ps) := mt (JoinsBackslashes.cons (by simp)) hnot
    have hopen' := (closing?_escaped_eq_none_iff hquote hfeed).1 hopen
    exact (closing?_escaped_eq_none_iff hquote hfeed).2 (h.level (hjoins hnot') hopen')
  · have hbackslash : c ≠ '\\' := by
      rintro rfl
      exact hstarts ⟨[], ps, rfl, fun _ hmem => (List.not_mem_nil hmem).elim⟩
    obtain ⟨-, hopen⟩ := (closing?_cons_eq_none_iff hfeed hbackslash).1 hopen
    exact (closing?_escaped_eq_none_iff hquote hfeed).2 (h.level (hjoins hnot) hopen)

/-- A literal, which is read over before and gone afterwards. -/
lemma StaysOpen.literal (h : StaysOpen quote ps) (hfeed : '\n' ∉ u) (hne : u ≠ [])
    (hlast : u.getLast? ≠ some '\\') : StaysOpen quote (.literal u :: ps) := by
  have hjoins : ¬JoinsBackslashes (.literal u :: ps) → ¬JoinsBackslashes ps :=
    mt (JoinsBackslashes.cons (by simp))
  refine ⟨fun hnot hopen => ?_, fun hnot hopen => ?_, fun hnot hstarts hopen => ?_⟩
  · exact h.level (hjoins hnot) (closing?_right_eq_none hfeed hlast hopen)
  · have hnot' : ¬JoinsBackslashes (.literal u :: ps) := mt (JoinsBackslashes.cons (by simp)) hnot
    have hstarts : ¬StartsWithBackslash ps := by
      intro hstarts
      exact hnot ⟨[], u, ps, rfl, List.not_mem_nil, hstarts⟩
    have hescaped : ('\\' :: u).getLast? ≠ some '\\' := by
      rwa [List.getLast?_cons_of_ne_nil hne]
    have hopen' : closing? quote (('\\' :: u) ++ ps.flatMap Piece.source) 0 = none := hopen
    exact h.drawn (hjoins hnot') hstarts
      (closing?_right_eq_none (by simp [hfeed]) hescaped hopen')
  · exact h.drawn (hjoins hnot) (fun h' => hstarts (h'.cons_literal u))
      (closing?_right_eq_none hfeed hlast hopen)

/-- **An open quote is closed only where backslashes come together.** -/
lemma staysOpen_of_literalsEnd (hquote : isQuote quote = true) (hps : LiteralsEnd ps) :
    StaysOpen quote ps := by
  induction ps with
  | nil => exact ⟨fun _ h => h, fun _ h => h, fun _ _ _ => closing?_last hquote 0⟩
  | cons piece ps ih =>
      have hrest := ih fun u hu => hps u (List.mem_cons_of_mem piece hu)
      cases piece with
      | code c => exact hrest.code hquote c
      | literal u =>
          obtain ⟨hfeed, hne, hlast⟩ := hps u List.mem_cons_self
          exact hrest.literal hfeed hne hlast

/-- Where no backslashes come together behind an open quote, all open quotes stay open. -/
lemma quotesStayOpen_of_not_joins (h : ¬JoinsBehindQuote s) : QuotesStayOpen (pieces s) := by
  intro before quote after hs hquote
  have hend : LiteralsEnd after := by
    intro u hu
    refine literalsEnd_pieces s u ?_
    rw [hs]
    exact List.mem_append_right _ (List.mem_cons_of_mem _ hu)
  have hnot : ¬JoinsBackslashes after := fun hjoins => h ⟨before, quote, after, hs, hquote, hjoins⟩
  exact (staysOpen_of_literalsEnd hquote hend).level hnot (closing?_of_pieces_eq hs hquote)

/-- **When literals are removed for good.** With either way to remove them, whatever the limits,
removing literals again changes nothing if and only if the quotes that the text leaves open stay
open when the literals behind them are gone; and they do, unless behind such a quote and on its line
literals are removed from right between two backslashes. -/
theorem strip_twice_iff (s : Text) :
    (stripByScan (stripByScan s) = stripByScan s ↔ QuotesStayOpen (pieces s)) ∧
      (∀ limit limit' out again, stripByPattern? limit s = some out →
        stripByPattern? limit' out = some again → (again = out ↔ QuotesStayOpen (pieces s))) ∧
      (∀ limit limit', strip limit' (strip limit s) = strip limit s ↔
        QuotesStayOpen (pieces s)) ∧
      (¬JoinsBehindQuote s → QuotesStayOpen (pieces s)) := by
  refine ⟨stripByScan_twice_iff s, ?_, ?_, quotesStayOpen_of_not_joins⟩
  · intro limit limit' out again hout hagain
    rw [stripByPattern?_eq_stripByScan hagain, stripByPattern?_eq_stripByScan hout,
      stripByScan_twice_iff]
  · intro limit limit'
    rw [strip_eq_stripByScan, strip_eq_stripByScan, stripByScan_twice_iff]

/-- An open apostrophe, a literal right behind a backslash, and a letter. -/
def loneBackslash : Text :=
  ['\'', '\\', '"', 'a', '"', 'b']

/-- Behind the open apostrophe the literal is gone for good, as far as the searches say. -/
theorem strip_twice_iff_loneBackslash :
    ¬JoinsBehindQuote loneBackslash ∧
      ∃ out again, stripByPattern? 20 loneBackslash = some out ∧ out = ['\'', '\\', 'b'] ∧
        stripByPattern? 20 out = some again ∧ again = out := by
  have hnot : ¬JoinsBehindQuote loneBackslash := by
    rintro ⟨before, quote, after, hs, -, inside, u, rest, rfl, -, literals, last, rfl, -⟩
    -- There is only one backslash in the code.
    have hcount : (pieces loneBackslash).count (.code '\\') = 1 := by decide +kernel
    rw [hs] at hcount
    simp only [List.count_append, List.count_cons, beq_self_eq_true, if_true] at hcount
    omega
  have hout : stripByPattern? 20 loneBackslash = some ['\'', '\\', 'b'] := by decide +kernel
  have hagain : stripByPattern? 20 ['\'', '\\', 'b'] = some ['\'', '\\', 'b'] := by
    decide +kernel
  obtain ⟨-, hsearch, -, hstay⟩ := strip_twice_iff loneBackslash
  exact ⟨hnot, _, _, hout, rfl, hagain, (hsearch 20 20 _ _ hout hagain).2 (hstay hnot)⟩

/-- An open apostrophe, a literal between two backslashes, and an apostrophe. -/
def twoBackslashes : Text :=
  ['\'', '\\', '"', 'a', '"', '\\', '\'']

/-- **What is left may have literals.** When the literal between the backslashes is gone, the first
one escapes the second, and the last apostrophe closes the open one. So both ways to remove literals
leave something the first time and nothing the second time. -/
theorem strip_twice_ne :
    stripByScan (stripByScan twoBackslashes) ≠ stripByScan twoBackslashes ∧
      ∃ out again, stripByPattern? 20 twoBackslashes = some out ∧
        stripByPattern? 20 out = some again ∧ out = ['\'', '\\', '\\', '\''] ∧ again = [] := by
  refine ⟨by decide +kernel, ['\'', '\\', '\\', '\''], [], ?_⟩
  exact ⟨by decide +kernel, by decide +kernel, rfl, rfl⟩

end CallCensus.Literal
