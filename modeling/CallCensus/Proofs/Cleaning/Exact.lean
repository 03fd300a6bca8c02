import CallCensus.Proofs.Cleaning.Respacing
import CallCensus.Proofs.Comment.Rendering
import CallCensus.Proofs.Literal.Agreement

/-!
Cleaning is exact on well-formed sources.

A well-formed source is put together from fragments of code, literals and comments that do not
run into each other. The comment scan finds these parts again, as its pieces; what either way
to remove comments leaves is a rendering of them, and in such a rendering the literals are
what either way to remove literals takes out. So what is left is the code, with a blank for
every comment, up to white space.

* `Part`, `WellFormed`: the parts of a source, and when they are well formed;
* `ideal`: the code with one space for every comment and nothing for a literal;
* `pieces_source`: the comment scan finds the parts;
* `respaced_of_rendered`: literals are removed from any rendering of them;
* `count_eq_of_cleaned`: every count of call sites is that of the ideal text.
-/

namespace CallCensus.Cleaning

/-! ### Well-formed sources -/

/-- A part of a well-formed source. -/
inductive Part where
  /-- A fragment of code. -/
  | code (s : Text)
  /-- A literal on one line, between two quotes. -/
  | literal (quote : Char) (body : Text)
  /-- A block comment. -/
  | block (body : Text)
  /-- A line comment, without the line break after it. -/
  | line (body : Text)
deriving DecidableEq

/-- The text of a part. -/
def Part.source : Part → Text
  | code s => s
  | literal quote body => quote :: (body ++ [quote])
  | block body => '/' :: '*' :: (body ++ ['*', '/'])
  | line body => '/' :: '/' :: body

/-- What should stay of a part: the code, and one space for a comment. -/
def Part.ideal : Part → Text
  | code s => s
  | literal _ _ => []
  | block _ => [' ']
  | line _ => [' ']

/-- The text that is put together from parts. -/
def source (parts : List Part) : Text :=
  parts.flatMap Part.source

/-- What should stay of the text. -/
def ideal (parts : List Part) : Text :=
  parts.flatMap Part.ideal

/-- Code without quotes and comment markers, which does not end in a slash. -/
structure IsCode (s : Text) : Prop where
  quoteless : ∀ c ∈ s, Literal.isQuote c = false
  no_line : ¬['/', '/'] <:+: s
  no_block : ¬['/', '*'] <:+: s
  last : s.getLast? ≠ some '/'

/-- The body of a literal: characters other than the quote, the backslash and the line feed,
and backslashes with the character after them, which is no line feed. -/
inductive IsBody (quote : Char) : Text → Prop
  | nil : IsBody quote []
  | ordinary {c : Char} {s : Text} (hquote : c ≠ quote) (hbackslash : c ≠ '\\')
      (hnewline : c ≠ '\n') (h : IsBody quote s) : IsBody quote (c :: s)
  | escaped {c : Char} {s : Text} (hnewline : c ≠ '\n') (h : IsBody quote s) :
      IsBody quote ('\\' :: c :: s)

/-- Whether a line ends here: at a line break, or at the end of the text. -/
def EndsLine (s : Text) : Prop :=
  s = [] ∨ (∃ rest, s = '\n' :: rest) ∨ ∃ rest, s = '\r' :: '\n' :: rest

/-- Whether a part is well formed where it is followed by `rest`. -/
def Part.WellFormed (rest : Text) : Part → Prop
  | code s => IsCode s
  | literal quote body => (quote = '"' ∨ quote = '\'') ∧ IsBody quote body
  | block body => ¬['*', '/'] <:+: body
  | line body => (∀ c ∈ body, c ≠ '\n' ∧ c ≠ '\r' ∧ c ≠ '\\') ∧ EndsLine rest

/-- Whether all parts are well formed where they stand. -/
def WellFormed : List Part → Prop
  | [] => True
  | part :: parts => part.WellFormed (source parts) ∧ WellFormed parts

/-! ### The comment scan finds the parts -/

open Comment

/-- A part as the comment scan cuts it. -/
def Part.pieces : Part → List Piece
  | code s => s.map .code
  | part@(literal _ _) => [.quoted part.source]
  | part@(block _) => [.comment part.source]
  | part@(line _) => [.comment part.source]

variable {s rest body : Text} {quote : Char} {n : ℕ}

lemma IsCode.tail {c : Char} (h : IsCode (c :: s)) : IsCode s := by
  refine ⟨fun d hd => h.quoteless d (List.mem_cons_of_mem c hd), ?_, ?_, ?_⟩
  · exact fun hoccurs => h.no_line (hoccurs.trans (List.suffix_cons c s).isInfix)
  · exact fun hoccurs => h.no_block (hoccurs.trans (List.suffix_cons c s).isInfix)
  · intro hlast
    cases s with
    | nil => cases hlast
    | cons d s => exact h.last (by rwa [List.getLast?_cons_cons])

/-- No comment starts in code. -/
lemma pieceAt_of_isCode {c : Char} (h : IsCode (c :: s)) (rest : Text) :
    pieceAt c (s ++ rest) = (.code c, 0) := by
  have hc := h.quoteless c List.mem_cons_self
  have hquote : ¬(c = '"' ∨ c = '\'') := by
    rintro (rfl | rfl) <;> cases hc
  by_cases hslash : c = '/'
  · subst hslash
    cases s with
    | nil => exact (h.last rfl).elim
    | cons d s =>
        have hline : d ≠ '/' := by
          rintro rfl
          exact h.no_line ⟨[], s, rfl⟩
        have hblock : d ≠ '*' := by
          rintro rfl
          exact h.no_block ⟨[], s, rfl⟩
        simp [pieceAt, hline, hblock]
  · exact pieceAt_ordinary hquote hslash

lemma pieces_code_append (h : IsCode s) (rest : Text) :
    Comment.pieces (s ++ rest) = s.map .code ++ Comment.pieces rest := by
  induction s with
  | nil => rfl
  | cons c s ih =>
      rw [List.cons_append, pieces_code (pieceAt_of_isCode h rest), ih h.tail]
      rfl

/-- The comment scan closes a literal at its second quote. -/
lemma closing?_append (hquote : quote ≠ '\\') (h : IsBody quote body) (rest : Text) (n : ℕ) :
    closing? quote (body ++ quote :: rest) n = some (n + body.length + 1) := by
  induction h generalizing n with
  | nil => exact Comment.closing?_quote hquote
  | ordinary hne hbackslash hnewline h ih =>
      rw [List.cons_append, closing?_ordinary (by simp [hne, hbackslash]), ih, List.length_cons]
      congr 1
      omega
  | escaped hnewline h ih =>
      rw [List.cons_append, List.cons_append, closing?_escape, ih]
      congr 1
      simp only [List.length_cons]
      omega

/-- The comment scan ends a block comment at the first closing marker. -/
lemma blockEnd?_append (h : ¬['*', '/'] <:+: body) (rest : Text) (n : ℕ) :
    blockEnd? (body ++ '*' :: '/' :: rest) n = some (n + body.length + 2) := by
  induction body generalizing n with
  | nil => rfl
  | cons c body ih =>
      have htail : ¬['*', '/'] <:+: body :=
        fun hoccurs => h (hoccurs.trans (List.suffix_cons c body).isInfix)
      have hstep : blockEnd? (c :: (body ++ '*' :: '/' :: rest)) n =
          blockEnd? (body ++ '*' :: '/' :: rest) (n + 1) := by
        rw [blockEnd?]
        rintro tail rfl heq
        cases body with
        | nil => cases heq
        | cons d body =>
            cases heq
            exact h ⟨[], body, rfl⟩
      rw [List.cons_append, hstep, ih htail, List.length_cons]
      congr 1
      omega

/-- The comment scan ends a line comment where the line ends. -/
lemma lineEnd_append (h : ∀ c ∈ body, c ≠ '\n' ∧ c ≠ '\r' ∧ c ≠ '\\') (hrest : EndsLine rest)
    (n : ℕ) : lineEnd (body ++ rest) n = n + body.length := by
  induction body generalizing n with
  | nil =>
      rcases hrest with rfl | ⟨tail, rfl⟩ | ⟨tail, rfl⟩ <;> simp [lineEnd]
  | cons c body ih =>
      obtain ⟨⟨hfeed, hreturn, hbackslash⟩, hbody⟩ := List.forall_mem_cons.1 h
      have hstep : lineEnd (c :: (body ++ rest)) n = lineEnd (body ++ rest) (n + 1) := by
        rw [lineEnd]
        all_goals simp [hfeed, hreturn, hbackslash]
      rw [List.cons_append, hstep, ih hbody, List.length_cons]
      omega

/-- A part is cut out where it stands. -/
lemma pieces_append_source {part : Part} (h : part.WellFormed rest) :
    Comment.pieces (part.source ++ rest) = part.pieces ++ Comment.pieces rest := by
  cases part with
  | code s => exact pieces_code_append h rest
  | literal quote body =>
      obtain ⟨hquote, hbody⟩ := h
      have hne : quote ≠ '\\' := by
        rintro rfl
        rcases hquote with h | h <;> cases h
      have hclosing := closing?_append hne hbody rest 0
      have hsource : (Part.literal quote body).source ++ rest =
          quote :: (body ++ quote :: rest) := by simp [Part.source]
      have hcut : body ++ quote :: rest = (body ++ [quote]) ++ rest := by simp
      rw [hsource, pieces_quoted hquote hclosing, hcut, List.take_left' (by simp),
        List.drop_left' (by simp)]
      rfl
  | block body =>
      have hend := blockEnd?_append h rest 0
      have hsource : (Part.block body).source ++ rest =
          '/' :: '*' :: (body ++ '*' :: '/' :: rest) := by simp [Part.source]
      have hcut : body ++ '*' :: '/' :: rest = (body ++ ['*', '/']) ++ rest := by simp
      rw [hsource, pieces_block hend, hcut, List.take_left' (by simp),
        List.drop_left' (by simp)]
      rfl
  | line body =>
      obtain ⟨hbody, hrest⟩ := h
      have hend : lineEnd (body ++ rest) 0 = body.length := by
        rw [lineEnd_append hbody hrest, Nat.zero_add]
      have hsource : (Part.line body).source ++ rest = '/' :: '/' :: (body ++ rest) := rfl
      rw [hsource, pieces_line, hend, List.take_left, List.drop_left]
      rfl

/-- **The comment scan finds the parts of a well-formed source.** -/
lemma pieces_source {parts : List Part} (h : WellFormed parts) :
    Comment.pieces (source parts) = parts.flatMap Part.pieces := by
  induction parts with
  | nil => exact Text.pieces_nil pieceAt
  | cons part parts ih =>
      obtain ⟨hpart, hparts⟩ := h
      have hsource : source (part :: parts) = part.source ++ source parts := rfl
      rw [hsource, pieces_append_source hpart, ih hparts]
      rfl

/-! ### Literals are removed from a rendering -/

/-- What should stay of a piece. -/
def idealPiece : Piece → Text
  | .code c => [c]
  | .quoted _ => []
  | .comment _ => [' ']

/-- A piece of a well-formed source: code that is no quote, a literal, or a comment. -/
def IsTame : Piece → Prop
  | .code c => Literal.isQuote c = false
  | .quoted s => ∃ quote body, Literal.isQuote quote = true ∧ IsBody quote body ∧
      quote ≠ '\\' ∧ quote ≠ '\n' ∧ s = quote :: (body ++ [quote])
  | .comment _ => True

/-- The literal scan closes a literal at its second quote. -/
lemma literal_closing?_append (hbackslash : quote ≠ '\\') (h : IsBody quote body) (rest : Text)
    (n : ℕ) : Literal.closing? quote (body ++ quote :: rest) n = some (n + body.length + 1) := by
  induction h generalizing n with
  | nil => exact Literal.closing?_quote quote rest n
  | ordinary hne hbackslash hnewline h ih =>
      rw [List.cons_append, Literal.closing?_cons hne hnewline hbackslash, ih, List.length_cons]
      congr 1
      omega
  | escaped hnewline h ih =>
      rw [List.cons_append, List.cons_append, Literal.closing?_backslash hbackslash.symm hnewline,
        ih]
      congr 1
      simp only [List.length_cons]
      omega

/-- A literal is removed wherever it stands. -/
lemma stripByScan_append {q : Text} (h : IsTame (.quoted q)) (out : Text) :
    Literal.stripByScan (q ++ out) = Literal.stripByScan out := by
  obtain ⟨quote, body, hquote, hbody, hbackslash, -, rfl⟩ := h
  have hclosing := literal_closing?_append hbackslash hbody out 0
  have hcut : body ++ quote :: out = (body ++ [quote]) ++ out := by simp
  have hsource : quote :: (body ++ [quote]) ++ out = quote :: (body ++ quote :: out) := by simp
  rw [hsource, Literal.stripByScan_literal hquote hclosing, hcut, List.drop_left' (by simp)]

lemma isBlankRun_flatMap {run : List Piece} (h : IsGap run) :
    IsBlankRun (run.flatMap idealPiece) :=
  h.flatMap_left (fun _ => rfl) fun _ => rfl

/-- **Removing literals from a rendering leaves the ideal text, up to white space.** -/
lemma respaced_of_rendered {ps : List Piece} {out : Text} (h : Rendered ps out)
    (hps : ∀ piece ∈ ps, IsTame piece) :
    Respaced (Literal.stripByScan out) (ps.flatMap idealPiece) := by
  induction h with
  | nil =>
      rw [Literal.stripByScan_nil]
      exact .nil
  | code c h ih =>
      obtain ⟨hc, hps⟩ := List.forall_mem_cons.1 hps
      have hquote : Literal.isQuote c = false := hc
      rw [Literal.stripByScan_code (by simp [hquote]), List.flatMap_cons]
      exact .char c (ih hps)
  | quoted s h ih =>
      obtain ⟨hs, hps⟩ := List.forall_mem_cons.1 hps
      rw [stripByScan_append hs]
      exact ih hps
  | gap hrun h ih =>
      rw [Literal.stripByScan_code (by simp [Literal.isQuote, Literal.backquote]),
        List.flatMap_append]
      refine .blanks isBlankRun_space (isBlankRun_flatMap hrun) (ih fun piece hpiece => ?_)
      exact hps piece (List.mem_append_right _ hpiece)

/-- The pieces of a part are tame, and what should stay of them is what should stay of the
part. -/
lemma pieces_of_wellFormed {part : Part} (h : part.WellFormed rest) :
    (∀ piece ∈ part.pieces, IsTame piece) ∧ part.pieces.flatMap idealPiece = part.ideal := by
  cases part with
  | code s =>
      refine ⟨fun piece hpiece => ?_, ?_⟩
      · obtain ⟨c, hc, rfl⟩ := List.mem_map.1 hpiece
        exact h.quoteless c hc
      · rw [Part.pieces, List.flatMap_map]
        exact List.flatMap_singleton' s
  | literal quote body =>
      refine ⟨fun piece hpiece => ?_, rfl⟩
      obtain rfl := List.mem_singleton.1 hpiece
      obtain ⟨hquote, hbody⟩ := h
      rcases hquote with rfl | rfl
      · exact ⟨_, body, rfl, hbody, by decide, by decide, rfl⟩
      · exact ⟨_, body, rfl, hbody, by decide, by decide, rfl⟩
  | block body => exact ⟨fun piece hpiece => List.mem_singleton.1 hpiece ▸ trivial, rfl⟩
  | line body => exact ⟨fun piece hpiece => List.mem_singleton.1 hpiece ▸ trivial, rfl⟩

/-- The same for a whole source. -/
lemma flatMap_pieces_of_wellFormed {parts : List Part} (h : WellFormed parts) :
    (∀ piece ∈ parts.flatMap Part.pieces, IsTame piece) ∧
      (parts.flatMap Part.pieces).flatMap idealPiece = ideal parts := by
  induction parts with
  | nil => exact ⟨fun piece hpiece => (List.not_mem_nil hpiece).elim, rfl⟩
  | cons part parts ih =>
      obtain ⟨hpart, hparts⟩ := h
      obtain ⟨htame, hideal⟩ := pieces_of_wellFormed hpart
      obtain ⟨htame', hideal'⟩ := ih hparts
      rw [List.flatMap_cons]
      refine ⟨List.forall_mem_append.2 ⟨htame, htame'⟩, ?_⟩
      rw [List.flatMap_append, hideal, hideal']
      rfl

/-! ### Cleaning -/

/-- A text without its comments, by either way to remove them. -/
def CommentsRemoved (s out : Text) : Prop :=
  out = Comment.stripByScan s ∨ ∃ limit, Comment.stripByPattern? limit s = some out

/-- A text without its literals, by either way to remove them. -/
def LiteralsRemoved (s out : Text) : Prop :=
  out = Literal.stripByScan s ∨ ∃ limit, Literal.stripByPattern? limit s = some out

/-- A text without its comments, and then without its literals. -/
def Cleaned (s out : Text) : Prop :=
  ∃ commentless, CommentsRemoved s commentless ∧ LiteralsRemoved commentless out

/-- Whatever the limit, comments are removed in one of the two ways. -/
lemma commentsRemoved_strip (limit : ℕ) (s : Text) :
    CommentsRemoved s (Comment.strip limit s) := by
  rw [Comment.strip]
  cases h : Comment.stripByPattern? limit s with
  | none => exact .inl rfl
  | some out => exact .inr ⟨limit, h⟩

/-- Whatever the limits, one of the two ways is taken in each pass. -/
lemma cleaned_strip (limit limit' : ℕ) (s : Text) :
    Cleaned s (Literal.strip limit' (Comment.strip limit s)) := by
  refine ⟨Comment.strip limit s, commentsRemoved_strip limit s, ?_⟩
  rw [Literal.strip]
  cases h : Literal.stripByPattern? limit' (Comment.strip limit s) with
  | none => exact .inl rfl
  | some out => exact .inr ⟨limit', h⟩

lemma rendered_of_commentsRemoved {s out : Text} (h : CommentsRemoved s out) :
    Rendered (Comment.pieces s) out := by
  rcases h with rfl | ⟨limit, h⟩
  · exact rendered_kept (Comment.pieces s)
  · exact rendered_of_stripByPattern? h

lemma eq_of_literalsRemoved {s out : Text} (h : LiteralsRemoved s out) :
    out = Literal.stripByScan s := by
  rcases h with h | ⟨limit, h⟩
  · exact h
  · exact Literal.stripByPattern?_eq_stripByScan h

/-- **Cleaning a well-formed source leaves the ideal text, up to white space.** -/
theorem respaced_of_cleaned {parts : List Part} {out : Text} (h : WellFormed parts)
    (hout : Cleaned (source parts) out) : Respaced out (ideal parts) := by
  obtain ⟨commentless, hcomments, hliterals⟩ := hout
  have hrendered := rendered_of_commentsRemoved hcomments
  obtain ⟨htame, hideal⟩ := flatMap_pieces_of_wellFormed h
  rw [pieces_source h] at hrendered
  rw [eq_of_literalsRemoved hliterals, ← hideal]
  exact respaced_of_rendered hrendered htame

open CallSite in
/-- **Cleaning is exact.** On a well-formed source each way to count call sites finds after
cleaning, done by the patterns, by the scans or by one of each, what it finds in the ideal
text. -/
theorem count_eq_of_cleaned {parts : List Part} {operator out : Text} (h : WellFormed parts)
    (hoperator : IsName operator) (hout : Cleaned (source parts) out) :
    countByScan operator out = countByScan operator (ideal parts) ∧
      ∀ limit limit' n m, countByPattern? limit operator out = some n →
        countByPattern? limit' operator (ideal parts) = some m → n = m := by
  have hrespaced := respaced_of_cleaned h hout
  refine ⟨countByScan_eq_of_respaced hoperator hrespaced, ?_⟩
  intro limit limit' n m hn hm
  exact countByPattern?_eq_of_respaced hoperator hrespaced hn hm

/-- A call of `f` around a comment that holds a quote, with a literal that holds an escaped
quote and a name, and a line comment that holds an apostrophe. -/
def crossedCall : List Part :=
  [.code ['f', ' '], .block ['"'], .code ['('], .literal '"' ['\\', '"', 'f', '('],
    .line ['\''], .code ['\n']]

lemma wellFormed_crossedCall : WellFormed crossedCall := by
  have hname : IsCode ['f', ' '] :=
    ⟨by simp [Literal.isQuote, Literal.backquote], by decide, by decide, by decide⟩
  have hbracket : IsCode ['('] :=
    ⟨by simp [Literal.isQuote, Literal.backquote], by decide, by decide, by decide⟩
  have hbreak : IsCode ['\n'] :=
    ⟨by simp [Literal.isQuote, Literal.backquote], by decide, by decide, by decide⟩
  have hblock : ¬['*', '/'] <:+: ['"'] := by decide
  have hbody : IsBody '"' ['\\', '"', 'f', '('] :=
    .escaped (by decide) (.ordinary (by decide) (by decide) (by decide)
      (.ordinary (by decide) (by decide) (by decide) .nil))
  have hends : EndsLine (source [.code ['\n']]) := .inr (.inl ⟨[], rfl⟩)
  exact ⟨hname, hblock, hbracket, ⟨.inl rfl, hbody⟩, ⟨by simp, hends⟩, hbreak, trivial⟩

open CallSite in
/-- The patterns clean the crossed call, and both counters find it in what is left as they do
in the ideal text. -/
theorem count_eq_of_cleaned_crossedCall :
    ∃ out, Comment.stripByPattern? 20 (source crossedCall) = some
        ['f', ' ', ' ', '(', '"', '\\', '"', 'f', '(', '"', ' ', '\n'] ∧
      Cleaned (source crossedCall) out ∧
      countByScan ['f'] out = countByScan ['f'] (ideal crossedCall) ∧
      countByPattern? 20 ['f'] out = some 1 ∧
      countByPattern? 20 ['f'] (ideal crossedCall) = some 1 := by
  have hcomments : Comment.stripByPattern? 20 (source crossedCall) = some
      ['f', ' ', ' ', '(', '"', '\\', '"', 'f', '(', '"', ' ', '\n'] := by decide +kernel
  have hliterals : Literal.stripByPattern? 20
      ['f', ' ', ' ', '(', '"', '\\', '"', 'f', '(', '"', ' ', '\n'] =
        some ['f', ' ', ' ', '(', ' ', '\n'] := by decide +kernel
  have hcleaned : Cleaned (source crossedCall) ['f', ' ', ' ', '(', ' ', '\n'] :=
    ⟨_, .inr ⟨20, hcomments⟩, .inr ⟨20, hliterals⟩⟩
  have hname : IsName ['f'] := ⟨by simp, by simp [Unicode.isBlank]⟩
  obtain ⟨hscan, hpattern⟩ := count_eq_of_cleaned wellFormed_crossedCall hname hcleaned
  have hcount : countByPattern? 20 ['f'] ['f', ' ', ' ', '(', ' ', '\n'] = some 1 := by
    decide +kernel
  have hideal : ∃ n, countByPattern? 20 ['f'] (ideal crossedCall) = some n :=
    ⟨1, by decide +kernel⟩
  obtain ⟨n, hn⟩ := hideal
  obtain rfl := hpattern 20 20 1 n hcount hn
  exact ⟨_, hcomments, hcleaned, hscan, hcount, hn⟩

end CallCensus.Cleaning
