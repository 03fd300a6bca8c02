import CallCensus.Proofs.Cleaning.Exact

/-!
Which literals the removal of comments leaves alone.

Between two double quotes or two apostrophes nothing is taken for a comment: the literal is one
quoted span. The backquote opens no quoted span, so a literal between backquotes is read like code,
and it stays as it is if and only if the scan finds no comment in its body. What is around the
literal has no part in this, as long as it has no quotes and no slashes.

* `HidesComment`: texts in which the scan finds a comment;
* `hidesComment_append_iff`: what follows without quotes and slashes makes no comment;
* `eq_iff_not_hidesComment`: a text is left alone if and only if there is no comment in it;
* `strip_literal_eq_iff`: when a literal is left alone;
* `strip_template_ne`: a literal that is not.
-/

namespace CallCensus.Cleaning

open Comment

variable {c quote : Char} {s t u rest body out before after : Text} {n m : ℕ}

/-! ### Where comments are found -/

/-- A text in which the scan finds a comment. -/
def HidesComment (s : Text) : Prop :=
  ∃ body, Piece.comment body ∈ pieces s

/-- A text without the characters at which a token may start. -/
def IsPlain (s : Text) : Prop :=
  ∀ c ∈ s, ¬(c = '"' ∨ c = '\'') ∧ c ≠ '/'

lemma closing?_eq_none (hs : quote ∉ s) (n : ℕ) : closing? quote s n = none := by
  fun_induction closing? quote s n with
  | case1 => rfl
  | case2 => rfl
  | case3 c rest n ih => exact ih fun h => hs (by simp [h])
  | case4 rest n hlast hescape => exact absurd List.mem_cons_self hs
  | case5 c rest n hlast hescape hc ih => exact ih fun h => hs (List.mem_cons_of_mem c h)

/-- A quoted span is closed within the part that has its quotes. -/
lemma closing?_append_of_not_mem (ht : quote ∉ t) (s : Text) (n : ℕ) :
    closing? quote (s ++ t) n = closing? quote s n := by
  fun_induction closing? quote s n with
  | case1 n => exact closing?_eq_none ht n
  | case2 n =>
      cases t with
      | nil => rfl
      | cons d t =>
          rw [List.singleton_append, closing?_escape]
          exact closing?_eq_none (fun h => ht (List.mem_cons_of_mem d h)) _
  | case3 c rest n ih => rw [List.cons_append, List.cons_append, closing?_escape, ih]
  | case4 rest n hlast hescape => exact closing?_quote (ne_backslash hlast hescape)
  | case5 c rest n hlast hescape hc ih =>
      have hbackslash : c ≠ '\\' := ne_backslash hlast hescape
      rw [List.cons_append, closing?_ordinary (by simp [hc, hbackslash]), ih]

/-- A quoted span is closed within the text. -/
lemma le_of_closing? (h : closing? quote s n = some m) : m ≤ n + s.length := by
  fun_induction closing? quote s n with
  | case1 => cases h
  | case2 => cases h
  | case3 c rest n ih =>
      have hle := ih h
      simp only [List.length_cons]
      omega
  | case4 rest n hlast hescape =>
      have hm := Option.some_inj.1 h
      simp only [List.length_cons]
      omega
  | case5 c rest n hlast hescape hc ih =>
      have hle := ih h
      simp only [List.length_cons]
      omega

lemma blockEnd?_eq_none (hs : '/' ∉ s) (n : ℕ) : blockEnd? s n = none := by
  fun_induction blockEnd? s n with
  | case1 => rfl
  | case2 rest n => exact absurd (by simp) hs
  | case3 c rest n _ ih => exact ih fun h => hs (List.mem_cons_of_mem c h)

/-- A block comment is closed within the part that has slashes. -/
lemma blockEnd?_append_of_not_mem (ht : '/' ∉ t) (s : Text) (n : ℕ) :
    blockEnd? (s ++ t) n = blockEnd? s n := by
  fun_induction blockEnd? s n with
  | case1 n => exact blockEnd?_eq_none ht n
  | case2 rest n => rfl
  | case3 c rest n hopen ih =>
      rw [List.cons_append, blockEnd?, ih]
      rintro tail rfl heq
      cases rest with
      | nil => exact ht (by rw [List.nil_append] at heq; simp [heq])
      | cons d rest =>
          cases heq
          exact hopen rest rfl rfl

/-- What follows without quotes and slashes changes no token, but for a line comment, which it
may make longer. -/
lemma pieceAt_append (ht : IsPlain t) (c : Char) (rest : Text) :
    ((∃ body n, pieceAt c (rest ++ t) = (.comment body, n)) ∧
      ∃ body n, pieceAt c rest = (.comment body, n)) ∨
    (pieceAt c (rest ++ t) = pieceAt c rest ∧ (pieceAt c rest).2 ≤ rest.length) := by
  have hslash : '/' ∉ t := fun h => (ht _ h).2 rfl
  by_cases hquote : c = '"' ∨ c = '\''
  · have hnot : c ∉ t := fun h => (ht c h).1 hquote
    right
    cases hclosing : closing? c rest 0 with
    | none => simp [pieceAt, hquote, closing?_append_of_not_mem hnot, hclosing]
    | some n =>
        have hle : n ≤ rest.length := by simpa using le_of_closing? hclosing
        simp [pieceAt, hquote, closing?_append_of_not_mem hnot, hclosing, hle,
          List.take_append_of_le_length hle]
  by_cases hc : c = '/'
  · subst hc
    cases rest with
    | nil =>
        right
        cases t with
        | nil => simp [pieceAt]
        | cons d t =>
            have hd : d ≠ '/' := fun h => hslash (by simp [h])
            have hnone : blockEnd? t 0 = none :=
              blockEnd?_eq_none (fun h => hslash (List.mem_cons_of_mem d h)) 0
            by_cases hstar : d = '*' <;> simp [pieceAt, hd, hstar, hnone]
    | cons d rest =>
        by_cases hline : d = '/'
        · subst hline
          exact .inl ⟨⟨_, _, rfl⟩, ⟨_, _, rfl⟩⟩
        by_cases hstar : d = '*'
        · subst hstar
          have hend := blockEnd?_append_of_not_mem hslash rest 0
          cases hblock : blockEnd? rest 0 with
          | none => exact .inr (by simp [pieceAt, hend, hblock])
          | some n => exact .inl (by simp [pieceAt, hend, hblock])
        · exact .inr (by simp [pieceAt, hline, hstar])
  · exact .inr (by simp [pieceAt_ordinary hquote hc])

/-- A comment starts with a marker. -/
lemma of_pieceAt_comment (h : (pieceAt c rest).1 = .comment body) :
    c = '/' ∧ (∃ d inner, (d = '/' ∨ d = '*') ∧ rest = d :: inner) ∧ 2 ≤ body.length := by
  by_cases hquote : c = '"' ∨ c = '\''
  · simp only [pieceAt, if_pos hquote] at h
    split at h <;> cases h
  by_cases hc : c = '/'
  · subst hc
    cases rest with
    | nil => simp [pieceAt] at h
    | cons d inner =>
        by_cases hline : d = '/'
        · subst hline
          cases h
          exact ⟨rfl, ⟨_, inner, .inl rfl, rfl⟩, by simp⟩
        by_cases hstar : d = '*'
        · subst hstar
          cases hblock : blockEnd? inner 0 with
          | none => simp [pieceAt, hblock] at h
          | some n =>
              simp only [pieceAt, hblock] at h
              cases h
              exact ⟨rfl, ⟨_, inner, .inr rfl, rfl⟩, by simp⟩
        · simp [pieceAt, hline, hstar] at h
  · rw [pieceAt_ordinary hquote hc] at h
    cases h

/-- What holds of the empty text, and of a text when it holds of what its first piece leaves, holds
of every text. -/
lemma pieces_induction {P : Text → Prop} (nil : P [])
    (cons : ∀ c rest, P (rest.drop (pieceAt c rest).2) → P (c :: rest)) (s : Text) : P s := by
  induction hlength : s.length using Nat.strongRecOn generalizing s with
  | ind n ih =>
      cases s with
      | nil => exact nil
      | cons c rest =>
          exact cons c rest (ih _ (hlength ▸ Text.length_drop_lt c rest _) _ rfl)

/-- A comment of a text is its first piece or one of what that leaves. -/
lemma hidesComment_cons : HidesComment (c :: rest) ↔
    (∃ body, (pieceAt c rest).1 = .comment body) ∨
      HidesComment (rest.drop (pieceAt c rest).2) := by
  simp only [HidesComment, pieces_cons, List.mem_cons, exists_or, eq_comm]

lemma hidesComment_plain_append (hu : IsPlain u) (s : Text) :
    HidesComment (u ++ s) ↔ HidesComment s := by
  simp [HidesComment, pieces_append hu]

lemma not_hidesComment_nil : ¬HidesComment [] := by
  simp [HidesComment]

/-- No comment is made by a plain text that follows. -/
lemma hidesComment_append_iff (ht : IsPlain t) (u : Text) :
    HidesComment (u ++ t) ↔ HidesComment u := by
  induction u using pieces_induction with
  | nil => simpa using hidesComment_plain_append ht []
  | cons c rest ih =>
      rw [List.cons_append, hidesComment_cons, hidesComment_cons]
      rcases pieceAt_append ht c rest with ⟨⟨b, n, hpiece⟩, b', n', hpiece'⟩ | ⟨heq, hle⟩
      · exact iff_of_true (.inl ⟨b, by rw [hpiece]⟩) (.inl ⟨b', by rw [hpiece']⟩)
      · rw [heq, List.drop_append_of_le_length hle]
        exact or_congr_right ih

/-- A text without comment markers hides no comment. -/
lemma not_hidesComment (hline : ¬['/', '/'] <:+: s) (hblock : ¬['/', '*'] <:+: s) :
    ¬HidesComment s := by
  induction s using pieces_induction with
  | nil => exact not_hidesComment_nil
  | cons c rest ih =>
      rw [hidesComment_cons]
      rintro (⟨b, hb⟩ | hrest)
      · obtain ⟨rfl, ⟨d, inner, rfl | rfl, rfl⟩, -⟩ := of_pieceAt_comment hb
        · exact hline ⟨[], inner, rfl⟩
        · exact hblock ⟨[], inner, rfl⟩
      · have hsuffix : rest.drop (pieceAt c rest).2 <:+: c :: rest :=
          ((List.drop_suffix _ _).trans (List.suffix_cons c rest)).isInfix
        exact ih (fun h => hline (h.trans hsuffix)) (fun h => hblock (h.trans hsuffix)) hrest

/-! ### What a rendering changes -/

/-- A comment has its marker at least. -/
lemma two_le_length_of_mem_pieces (h : Piece.comment body ∈ pieces s) : 2 ≤ body.length := by
  induction s using pieces_induction with
  | nil => simp at h
  | cons c rest ih =>
      rw [pieces_cons, List.mem_cons] at h
      rcases h with h | h
      · exact (of_pieceAt_comment h.symm).2.2
      · exact ih h

lemma two_le_length_flatMap {ps : List Piece}
    (hps : ∀ body, Piece.comment body ∈ ps → 2 ≤ body.length)
    (h : ∃ body, Piece.comment body ∈ ps) : 2 ≤ (ps.flatMap Piece.source).length := by
  obtain ⟨b, hb⟩ := h
  have hsub : b.Sublist (ps.flatMap Piece.source) := by
    obtain ⟨before, after, rfl⟩ := List.append_of_mem hb
    rw [List.flatMap_append, List.flatMap_cons]
    exact (List.sublist_append_left _ _).trans (List.sublist_append_right _ _)
  exact Nat.le_trans (hps b hb) hsub.length_le

/-- A rendering is no longer than the text, and shorter when there is a comment. -/
lemma length_of_rendered {ps : List Piece} (h : Rendered ps out)
    (hps : ∀ body, Piece.comment body ∈ ps → 2 ≤ body.length) :
    out.length ≤ (ps.flatMap Piece.source).length ∧
      ((∃ body, Piece.comment body ∈ ps) → out.length < (ps.flatMap Piece.source).length) := by
  induction h with
  | nil => simp
  | code c h ih =>
      obtain ⟨hle, hlt⟩ := ih fun b hb => hps b (List.mem_cons_of_mem _ hb)
      refine ⟨by simpa [Piece.source] using hle, ?_⟩
      rintro ⟨b, hb⟩
      have hb' := (List.mem_cons.1 hb).resolve_left (by simp)
      simpa [Piece.source] using hlt ⟨b, hb'⟩
  | quoted s h ih =>
      obtain ⟨hle, hlt⟩ := ih fun b hb => hps b (List.mem_cons_of_mem _ hb)
      refine ⟨by simpa [Piece.source] using hle, ?_⟩
      rintro ⟨b, hb⟩
      have hb' := (List.mem_cons.1 hb).resolve_left (by simp)
      simpa [Piece.source] using hlt ⟨b, hb'⟩
  | gap hrun h ih =>
      obtain ⟨hle, -⟩ := ih fun b hb => hps b (List.mem_append_right _ hb)
      have htwo := two_le_length_flatMap (fun b hb => hps b (List.mem_append_left _ hb))
        hrun.comment
      rw [List.flatMap_append, List.length_append, List.length_cons]
      omega

/-- Where there is no comment everything stays. -/
lemma eq_flatMap_source_of_rendered {ps : List Piece} (h : Rendered ps out)
    (hps : ∀ body, Piece.comment body ∉ ps) : out = ps.flatMap Piece.source := by
  induction h with
  | nil => rfl
  | code c h ih =>
      rw [ih fun b hb => hps b (List.mem_cons_of_mem _ hb)]
      rfl
  | quoted s h ih =>
      rw [ih fun b hb => hps b (List.mem_cons_of_mem _ hb)]
      rfl
  | gap hrun h ih =>
      obtain ⟨b, hb⟩ := hrun.comment
      exact absurd (List.mem_append_left _ hb) (hps b)

/-- **The removal of comments leaves a text alone if and only if there is no comment in it.** -/
lemma eq_iff_not_hidesComment (h : CommentsRemoved s out) : out = s ↔ ¬HidesComment s := by
  have hrendered := rendered_of_commentsRemoved h
  constructor
  · rintro rfl hcomment
    have hlt := (length_of_rendered hrendered fun _ => two_le_length_of_mem_pieces).2 hcomment
    rw [source_pieces] at hlt
    exact Nat.lt_irrefl _ hlt
  · intro hnone
    rw [eq_flatMap_source_of_rendered hrendered fun b hb => hnone ⟨b, hb⟩, source_pieces]

/-! ### Literals -/

lemma isPlain_of_forall (h : ∀ c ∈ s, Literal.isQuote c = false ∧ c ≠ '/') : IsPlain s := by
  intro c hc
  refine ⟨?_, (h c hc).2⟩
  rintro (rfl | rfl) <;> exact absurd (h _ hc).1 (by decide)

/-- A literal between double quotes or apostrophes hides no comment, a literal between backquotes
those of its body. -/
lemma hidesComment_literal_iff (hquote : Literal.isQuote quote = true) (hbody : IsBody quote body)
    (hbefore : ∀ c ∈ before, Literal.isQuote c = false ∧ c ≠ '/')
    (hafter : ∀ c ∈ after, Literal.isQuote c = false ∧ c ≠ '/') :
    HidesComment (before ++ (Part.literal quote body).source ++ after) ↔
      quote = Literal.backquote ∧ HidesComment body := by
  have hplain := isPlain_of_forall hafter
  rw [List.append_assoc, hidesComment_plain_append (isPlain_of_forall hbefore)]
  by_cases hback : quote = Literal.backquote
  · subst hback
    have hopen : IsPlain [Literal.backquote] := by
      simp [IsPlain, Literal.backquote]
    have hclose : IsPlain (Literal.backquote :: after) := List.forall_mem_cons.2
      ⟨by simp [Literal.backquote], hplain⟩
    have hsource : (Part.literal Literal.backquote body).source ++ after =
        [Literal.backquote] ++ (body ++ Literal.backquote :: after) := by simp [Part.source]
    rw [hsource, hidesComment_plain_append hopen, hidesComment_append_iff hclose]
    simp
  · have hspan : quote = '"' ∨ quote = '\'' := by
      simpa [Literal.isQuote, hback] using hquote
    have hpart : (Part.literal quote body).WellFormed after := ⟨hspan, hbody⟩
    have hpieces := pieces_append_source hpart
    have hafterPieces := hidesComment_plain_append hplain []
    simp only [List.append_nil, not_hidesComment_nil, iff_false] at hafterPieces
    simp only [HidesComment, hpieces, Part.pieces, hback, false_and, iff_false]
    rintro ⟨b, hb⟩
    exact hafterPieces ⟨b, by simpa using hb⟩

/-- **Literals and the removal of comments.** Let a literal on one line stand between texts without
quotes and slashes. Both ways to remove comments leave the whole alone when the literal is between
double quotes or apostrophes, whatever is in its body; when it is between backquotes they do so if
and only if the scan finds no comment in its body. -/
theorem strip_literal_eq_iff (quote : Char) (body before after : Text)
    (hquote : Literal.isQuote quote = true) (hbody : IsBody quote body)
    (hbefore : ∀ c ∈ before, Literal.isQuote c = false ∧ c ≠ '/')
    (hafter : ∀ c ∈ after, Literal.isQuote c = false ∧ c ≠ '/') :
    (∀ out, CommentsRemoved (before ++ (Part.literal quote body).source ++ after) out →
      (out = before ++ (Part.literal quote body).source ++ after ↔
        (quote = Literal.backquote → ¬HidesComment body))) ∧
    ∀ limit, Comment.strip limit (before ++ (Part.literal quote body).source ++ after) =
      before ++ (Part.literal quote body).source ++ after ↔
        (quote = Literal.backquote → ¬HidesComment body) := by
  have hremoved : ∀ out, CommentsRemoved (before ++ (Part.literal quote body).source ++ after) out →
      (out = before ++ (Part.literal quote body).source ++ after ↔
        (quote = Literal.backquote → ¬HidesComment body)) := by
    intro out hout
    rw [eq_iff_not_hidesComment hout, hidesComment_literal_iff hquote hbody hbefore hafter, not_and]
  exact ⟨hremoved, fun limit => hremoved _ (commentsRemoved_strip limit _)⟩

/-- A literal that holds a comment marker and an apostrophe, and a template that holds a slash, each
the argument of a call. -/
theorem strip_literal_eq_iff_arguments :
    (∀ limit, Comment.strip limit
        (['f', '('] ++ (Part.literal '"' ['/', '/', '\'']).source ++ [')']) =
      ['f', '('] ++ (Part.literal '"' ['/', '/', '\'']).source ++ [')']) ∧
    ∀ limit, Comment.strip limit
        (['f', '('] ++ (Part.literal Literal.backquote ['a', '/', 'b']).source ++ [')']) =
      ['f', '('] ++ (Part.literal Literal.backquote ['a', '/', 'b']).source ++ [')'] := by
  have hbody : IsBody '"' ['/', '/', '\''] :=
    .ordinary (by decide) (by decide) (by decide) (.ordinary (by decide) (by decide) (by decide)
      (.ordinary (by decide) (by decide) (by decide) .nil))
  have hbody' : IsBody Literal.backquote ['a', '/', 'b'] :=
    .ordinary (by decide) (by decide) (by decide) (.ordinary (by decide) (by decide) (by decide)
      (.ordinary (by decide) (by decide) (by decide) .nil))
  have hbefore : ∀ c ∈ ['f', '('], Literal.isQuote c = false ∧ c ≠ '/' := by
    simp [Literal.isQuote, Literal.backquote]
  have hafter : ∀ c ∈ [')'], Literal.isQuote c = false ∧ c ≠ '/' := by
    simp [Literal.isQuote, Literal.backquote]
  refine ⟨fun limit => ?_, fun limit => ?_⟩
  · refine ((strip_literal_eq_iff _ _ _ _ rfl hbody hbefore hafter).2 limit).2 fun h => ?_
    exact absurd h (by decide)
  · refine ((strip_literal_eq_iff _ _ _ _ rfl hbody' hbefore hafter).2 limit).2 fun _ => ?_
    exact not_hidesComment (by decide) (by decide)

/-- Both ways to remove comments take a part of a template away that holds a comment marker, with
the backquote that closes it. -/
theorem strip_template_ne :
    IsBody Literal.backquote ['/', '/'] ∧
      Comment.stripByScan (Part.literal Literal.backquote ['/', '/']).source ≠
        (Part.literal Literal.backquote ['/', '/']).source ∧
      ∃ out, Comment.stripByPattern? 100 (Part.literal Literal.backquote ['/', '/']).source =
          some out ∧
        out ≠ (Part.literal Literal.backquote ['/', '/']).source := by
  refine ⟨.ordinary (by decide) (by decide) (by decide)
    (.ordinary (by decide) (by decide) (by decide) .nil), by decide +kernel,
    [Literal.backquote, ' '], by decide +kernel, by decide⟩

end CallCensus.Cleaning
