import CallCensus.Proofs.Cleaning.Exact
import CallCensus.Proofs.Cleaning.SideBySide

/-!
When both ways to remove comments lead to the same counts.

A literal ends with its line. Where the pattern takes a line break along that the scan keeps,
two lines become one for the pattern, and a quote on the first may then be closed on the
second. Such a literal is removed on the pattern's side only, with the call sites in it. Where
no literal goes across such a break, the literals on the two sides are the same, and what is
left differs in white space that no count sees.

* `Closes`, `closes_sides`: where a literal is closed on either side;
* `marks`: which characters of a text belong to its literals;
* `TearsLiteral`: a literal of the pattern's side goes across a line feed of the scan's side;
* `respaced_of_not_tearsLiteral`: otherwise the same literals are removed;
* `count_eq_of_not_tearsLiteral`: and every count is the same;
* `counts_differ_tornTemplate`: a text on which the counts are not the same.
-/

namespace CallCensus.Cleaning

open Comment (Cell cells GapsBlank)

variable {quote c : Char} {s t u : Text} {n m : ℕ} {cs part : List Cell}

/-! ### White space in a literal -/

lemma isQuote_of_isBlank (h : Unicode.isBlank c = true) : Literal.isQuote c = false := by
  rw [Bool.eq_false_iff, Literal.isQuote, Ne, Bool.or_eq_true, Bool.or_eq_true, beq_iff_eq,
    beq_iff_eq, beq_iff_eq]
  rintro ((rfl | rfl) | rfl) <;> cases h

lemma ne_of_isBlank (hquote : Literal.isQuote quote = true) (h : Unicode.isBlank c = true) :
    c ≠ quote := by
  rintro rfl
  rw [isQuote_of_isBlank h] at hquote
  cases hquote

/-- White space on one line is passed over in a literal. -/
lemma closing?_blanks (hquote : Literal.isQuote quote = true)
    (hu : ∀ c ∈ u, Unicode.isBlank c = true) (hfeed : '\n' ∉ u) (t : Text) (n : ℕ) :
    Literal.closing? quote (u ++ t) n = Literal.closing? quote t (n + u.length) := by
  induction u generalizing n with
  | nil => rfl
  | cons c u ih =>
      obtain ⟨hc, hu⟩ := List.forall_mem_cons.1 hu
      obtain ⟨hne, hfeed⟩ := List.ne_and_not_mem_of_not_mem_cons hfeed
      have hbackslash : c ≠ '\\' := by
        rintro rfl
        cases hc
      rw [List.cons_append,
        Literal.closing?_cons (ne_of_isBlank hquote hc) (Ne.symm hne) hbackslash, ih hu hfeed,
        List.length_cons, Nat.add_right_comm, Nat.add_assoc]

/-- White space that goes on to another line leaves a literal open. -/
lemma closing?_blanks_eq_none (hquote : Literal.isQuote quote = true)
    (hu : ∀ c ∈ u, Unicode.isBlank c = true) (hfeed : '\n' ∈ u) (t : Text) (n : ℕ) :
    Literal.closing? quote (u ++ t) n = none := by
  induction u generalizing n with
  | nil => cases hfeed
  | cons c u ih =>
      obtain ⟨hc, hu⟩ := List.forall_mem_cons.1 hu
      have hne := ne_of_isBlank hquote hc
      rw [List.cons_append]
      by_cases hline : c = '\n'
      · subst hline
        exact Literal.closing?_newline hne
      · have hbackslash : c ≠ '\\' := by
          rintro rfl
          cases hc
        rw [Literal.closing?_cons hne hline hbackslash]
        exact ih hu ((List.mem_cons.1 hfeed).resolve_left (Ne.symm hline)) _

/-- White space on one line is passed over behind a backslash, which takes its first blank. -/
lemma closing?_backslash_blanks (hquote : Literal.isQuote quote = true) (hu : IsBlankRun u)
    (hfeed : '\n' ∉ u) (t : Text) (n : ℕ) :
    Literal.closing? quote ('\\' :: (u ++ t)) n = Literal.closing? quote t (n + 1 + u.length) := by
  obtain ⟨hne, hblank⟩ := hu
  obtain ⟨c, u, rfl⟩ := List.exists_cons_of_ne_nil hne
  obtain ⟨-, hu⟩ := List.forall_mem_cons.1 hblank
  obtain ⟨hc, hfeed⟩ := List.ne_and_not_mem_of_not_mem_cons hfeed
  rw [List.cons_append, Literal.closing?_backslash (Literal.backslash_ne hquote) (Ne.symm hc),
    closing?_blanks hquote hu hfeed, List.length_cons]
  congr 1
  omega

/-- White space that goes on to another line leaves a literal open behind a backslash too. -/
lemma closing?_backslash_blanks_eq_none (hquote : Literal.isQuote quote = true)
    (hu : IsBlankRun u) (hfeed : '\n' ∈ u) (t : Text) (n : ℕ) :
    Literal.closing? quote ('\\' :: (u ++ t)) n = none := by
  obtain ⟨hne, hblank⟩ := hu
  obtain ⟨c, u, rfl⟩ := List.exists_cons_of_ne_nil hne
  obtain ⟨-, hu⟩ := List.forall_mem_cons.1 hblank
  rw [List.cons_append]
  by_cases hline : c = '\n'
  · subst hline
    exact Literal.closing?_backslash_newline hquote (u ++ t) n
  · rw [Literal.closing?_backslash (Literal.backslash_ne hquote) hline]
    exact closing?_blanks_eq_none hquote hu
      ((List.mem_cons.1 hfeed).resolve_left (Ne.symm hline)) t _

/-! ### Where a literal is closed on either side -/

/-- The scan keeps a line feed in a cell for which the pattern leaves one space. -/
def KeepsFeed : Cell → Prop
  | .kept _ => False
  | .gap left => '\n' ∈ left

instance : DecidablePred KeepsFeed
  | .kept _ => instDecidableFalse
  | .gap left => inferInstanceAs (Decidable ('\n' ∈ left))

/-- How a literal that is opened before some cells comes out on the two sides: it stays open on
both, or it takes the same cells on both, unless the scan keeps a line feed among them. -/
inductive Closes (quote : Char) (cs : List Cell) (n m : ℕ) : Prop
  | opened (hpattern : Literal.closing? quote (cs.map Cell.byPattern) n = none)
      (hscan : Literal.closing? quote (cs.flatMap Cell.byScan) m = none)
  | closed (inside after : List Cell) (hcs : cs = inside ++ after)
      (hpattern : Literal.closing? quote (cs.map Cell.byPattern) n = some (n + inside.length))
      (hscan : (∀ cell ∈ inside, ¬KeepsFeed cell) →
        Literal.closing? quote (cs.flatMap Cell.byScan) m =
          some (m + (inside.flatMap Cell.byScan).length))

/-- Cells that a literal goes on behind on the pattern's side, and on the scan's side unless
that keeps a line feed among them. -/
lemma Closes.append (part : List Cell)
    (h : Closes quote cs (n + part.length) (m + (part.flatMap Cell.byScan).length))
    (hpattern : Literal.closing? quote ((part ++ cs).map Cell.byPattern) n =
      Literal.closing? quote (cs.map Cell.byPattern) (n + part.length))
    (hscan : (∀ cell ∈ part, ¬KeepsFeed cell) →
      Literal.closing? quote ((part ++ cs).flatMap Cell.byScan) m =
        Literal.closing? quote (cs.flatMap Cell.byScan) (m + (part.flatMap Cell.byScan).length))
    (hfeed : ∀ cell ∈ part, KeepsFeed cell →
      Literal.closing? quote ((part ++ cs).flatMap Cell.byScan) m = none) :
    Closes quote (part ++ cs) n m := by
  cases h with
  | opened hopen hopen' =>
      refine .opened (hpattern.trans hopen) ?_
      by_cases hpart : ∃ cell ∈ part, KeepsFeed cell
      · obtain ⟨cell, hcell, hkeeps⟩ := hpart
        exact hfeed cell hcell hkeeps
      · exact (hscan fun cell hcell hkeeps => hpart ⟨cell, hcell, hkeeps⟩).trans hopen'
  | closed inside after hcs hclosed hclosed' =>
      refine .closed (part ++ inside) after (by rw [hcs, List.append_assoc]) ?_ ?_
      · rw [hpattern, hclosed, List.length_append, Nat.add_assoc]
      · intro hall
        obtain ⟨hpart, hinside⟩ := List.forall_mem_append.1 hall
        rw [hscan hpart, hclosed' hinside, List.flatMap_append, List.length_append, Nat.add_assoc]

variable {left : Text}

lemma Closes.kept (hclosing : ∀ t n, Literal.closing? quote (c :: t) n =
      Literal.closing? quote t (n + 1)) (h : Closes quote cs (n + 1) (m + 1)) :
    Closes quote (.kept c :: cs) n m := by
  refine Closes.append [.kept c] h (hclosing _ n) (fun _ => hclosing _ m) ?_
  intro cell hcell hkeeps
  obtain rfl := List.mem_singleton.1 hcell
  exact hkeeps.elim

/-- A literal goes on behind a backslash and a character that both sides keep. -/
lemma Closes.escaped (hquote : Literal.isQuote quote = true) (hc : c ≠ '\n')
    (h : Closes quote cs (n + 2) (m + 2)) :
    Closes quote (.kept '\\' :: .kept c :: cs) n m := by
  have hclosing : ∀ t n, Literal.closing? quote ('\\' :: c :: t) n =
      Literal.closing? quote t (n + 2) :=
    fun _ _ => Literal.closing?_backslash (Literal.backslash_ne hquote) hc
  refine Closes.append [.kept '\\', .kept c] h (hclosing _ n) (fun _ => hclosing _ m) ?_
  intro cell hcell hkeeps
  rcases List.mem_cons.1 hcell with rfl | hcell
  · exact hkeeps.elim
  · obtain rfl := List.mem_singleton.1 hcell
    exact hkeeps.elim

/-- A literal goes on behind a gap, on the scan's side only if that is on one line. -/
lemma Closes.gap (hquote : Literal.isQuote quote = true) (hleft : IsBlankRun left)
    (h : Closes quote cs (n + 1) (m + left.length)) : Closes quote (.gap left :: cs) n m := by
  have hlength : ([Cell.gap left].flatMap Cell.byScan).length = left.length := by
    rw [List.flatMap_singleton]
    rfl
  refine Closes.append [.gap left] (by rwa [hlength]) ?_ ?_ ?_
  · exact Literal.closing?_cons (ne_of_isBlank hquote rfl) (by decide : ' ' ≠ '\n')
      (by decide : ' ' ≠ '\\')
  · intro hall
    have hfeed : '\n' ∉ left := hall _ (List.mem_singleton_self _)
    rw [hlength]
    exact closing?_blanks hquote hleft.2 hfeed _ m
  · intro cell hcell hfeed
    obtain rfl := List.mem_singleton.1 hcell
    exact closing?_blanks_eq_none hquote hleft.2 hfeed _ m

/-- The same for a gap behind a backslash. -/
lemma Closes.escapedGap (hquote : Literal.isQuote quote = true) (hleft : IsBlankRun left)
    (h : Closes quote cs (n + 2) (m + 1 + left.length)) :
    Closes quote (.kept '\\' :: .gap left :: cs) n m := by
  have hlength : m + ([Cell.kept '\\', Cell.gap left].flatMap Cell.byScan).length =
      m + 1 + left.length := by
    simp only [List.flatMap_cons, List.flatMap_nil, Cell.byScan, List.append_nil,
      List.singleton_append, List.length_cons]
    omega
  refine Closes.append [.kept '\\', .gap left] (by rwa [hlength]) ?_ ?_ ?_
  · exact Literal.closing?_backslash (Literal.backslash_ne hquote) (by decide : ' ' ≠ '\n')
  · intro hall
    have hfeed : '\n' ∉ left := hall _ (List.mem_cons_of_mem _ List.mem_cons_self)
    rw [hlength]
    exact closing?_backslash_blanks hquote hleft hfeed _ m
  · intro cell hcell hfeed
    rcases List.mem_cons.1 hcell with rfl | hcell
    · exact hfeed.elim
    · obtain rfl := List.mem_singleton.1 hcell
      exact closing?_backslash_blanks_eq_none hquote hleft hfeed _ m

/-- The same for a backslash, which is read with the cell after it. -/
lemma closes_backslash (hquote : Literal.isQuote quote = true) (hcs : GapsBlank cs)
    (hbehind : ∀ next rest, cs = next :: rest → ∀ n m, Closes quote rest n m) (n m : ℕ) :
    Closes quote (.kept '\\' :: cs) n m := by
  cases cs with
  | nil =>
      exact .opened (Literal.closing?_last hquote n) (Literal.closing?_last hquote m)
  | cons next rest =>
      have hrest := hbehind next rest rfl
      cases next with
      | gap left => exact .escapedGap hquote (hcs left List.mem_cons_self) (hrest _ _)
      | kept c =>
          by_cases hfeed : c = '\n'
          · subst hfeed
            exact .opened (Literal.closing?_backslash_newline hquote _ n)
              (Literal.closing?_backslash_newline hquote _ m)
          · exact .escaped hquote hfeed (hrest _ _)

/-- **A literal comes out alike on both sides**, up to the line feeds that only the scan
keeps. -/
lemma closes_sides (hquote : Literal.isQuote quote = true) (hcs : GapsBlank cs) (n m : ℕ) :
    Closes quote cs n m := by
  -- A backslash takes the cell after it along, so the induction is on the number of cells.
  induction hlength : cs.length using Nat.strongRecOn generalizing cs n m with
  | ind k ih =>
      cases cs with
      | nil => exact .opened rfl rfl
      | cons cell rest =>
          have hrest : ∀ n m, Closes quote rest n m := fun n m =>
            ih rest.length (hlength ▸ Nat.lt_succ_self _) hcs.tail n m rfl
          cases cell with
          | gap left => exact .gap hquote (hcs left List.mem_cons_self) (hrest _ _)
          | kept c =>
              by_cases hc : c = quote
              · subst hc
                exact .closed [.kept c] rest rfl (Literal.closing?_quote c _ n)
                  fun _ => Literal.closing?_quote c _ m
              by_cases hfeed : c = '\n'
              · subst hfeed
                exact .opened (Literal.closing?_newline hc) (Literal.closing?_newline hc)
              by_cases hbackslash : c = '\\'
              · subst hbackslash
                refine closes_backslash hquote hcs.tail (fun next rest' hnext n m => ?_) n m
                subst hnext
                have hlt : rest'.length < k := by
                  rw [← hlength, List.length_cons, List.length_cons]
                  omega
                exact ih rest'.length hlt hcs.tail.tail n m rfl
              · exact .kept (fun t n => Literal.closing?_cons hc hfeed hbackslash) (hrest _ _)

/-! ### Literals that go on behind a folded line break -/

/-- For every character of a piece whether it belongs to a literal. -/
def pieceMarks : Literal.Piece → List Bool
  | .code _ => [false]
  | .literal s => s.map fun _ => true

/-- For every character of a text whether it belongs to a literal. -/
def marks (s : Text) : List Bool :=
  (Literal.pieces s).flatMap pieceMarks

lemma marks_code (h : Literal.isQuote c = true → Literal.closing? c t 0 = none) :
    marks (c :: t) = false :: marks t := by
  rw [marks, Literal.pieces_code h]
  rfl

lemma marks_literal (hquote : Literal.isQuote c = true)
    (h : Literal.closing? c (u ++ t) 0 = some u.length) :
    marks (c :: (u ++ t)) = (c :: u).map (fun _ => true) ++ marks t := by
  rw [marks, Literal.pieces_literal hquote h, List.take_left, List.drop_left]
  rfl

/-- A literal of the pattern's side goes on behind a gap in which the scan keeps a line
feed. -/
def TearsLiteral (cs : List Cell) : Prop :=
  ∃ marked ∈ cs.zip (marks (cs.map Cell.byPattern)), marked.2 = true ∧ KeepsFeed marked.1

instance : DecidablePred TearsLiteral := fun _ =>
  inferInstanceAs (Decidable (∃ marked ∈ _, _))

/-- A literal that is torn stays so with more cells before it, if these leave whole pieces. -/
lemma TearsLiteral.append (part : List Cell) (before : List Bool) (h : TearsLiteral cs)
    (hlength : part.length = before.length)
    (hmarks : marks ((part ++ cs).map Cell.byPattern) =
      before ++ marks (cs.map Cell.byPattern)) : TearsLiteral (part ++ cs) := by
  obtain ⟨marked, hmarked, htorn⟩ := h
  refine ⟨marked, ?_, htorn⟩
  rw [hmarks, List.zip_append hlength]
  exact List.mem_append_right _ hmarked

/-- A literal that takes a gap with a line feed along is torn. -/
lemma tearsLiteral_of_mem {cell : Cell} (hcell : cell ∈ part) (hfeed : KeepsFeed cell)
    (hmarks : marks ((part ++ cs).map Cell.byPattern) =
      (part.map Cell.byPattern).map (fun _ => true) ++ marks (cs.map Cell.byPattern)) :
    TearsLiteral (part ++ cs) := by
  refine ⟨(cell, true), ?_, rfl, hfeed⟩
  rw [hmarks, List.map_map, List.zip_append (List.length_map ..).symm]
  refine List.mem_append_left _ ?_
  rw [← List.map_prod_left_eq_zip]
  exact List.mem_map_of_mem hcell

lemma stripByScan_blanks (hu : ∀ c ∈ u, Unicode.isBlank c = true) (t : Text) :
    Literal.stripByScan (u ++ t) = u ++ Literal.stripByScan t := by
  induction u with
  | nil => rfl
  | cons c u ih =>
      obtain ⟨hc, hu⟩ := List.forall_mem_cons.1 hu
      rw [List.cons_append, Literal.stripByScan_code (by simp [isQuote_of_isBlank hc]), ih hu]
      rfl

/-- A literal that is not torn is removed from both sides, and no literal behind it is torn. -/
lemma literal_of_not_tearsLiteral {inside after : List Cell} (hquote : Literal.isQuote c = true)
    (hclosed : Literal.closing? c ((inside ++ after).map Cell.byPattern) 0 = some inside.length)
    (hclosed' : (∀ cell ∈ inside, ¬KeepsFeed cell) →
      Literal.closing? c ((inside ++ after).flatMap Cell.byScan) 0 =
        some (inside.flatMap Cell.byScan).length)
    (h : ¬TearsLiteral (.kept c :: inside ++ after)) :
    Literal.stripByScan (c :: (inside ++ after).map Cell.byPattern) =
        Literal.stripByScan (after.map Cell.byPattern) ∧
      Literal.stripByScan (c :: (inside ++ after).flatMap Cell.byScan) =
        Literal.stripByScan (after.flatMap Cell.byScan) ∧ ¬TearsLiteral after := by
  rw [List.map_append, ← List.length_map Cell.byPattern] at hclosed
  have hmarks : marks ((.kept c :: inside ++ after).map Cell.byPattern) =
      ((Cell.kept c :: inside).map Cell.byPattern).map (fun _ => true) ++
        marks (after.map Cell.byPattern) := by
    rw [List.map_append]
    exact marks_literal hquote hclosed
  have hfree : ∀ cell ∈ inside, ¬KeepsFeed cell := fun cell hcell hfeed =>
    h (tearsLiteral_of_mem (List.mem_cons_of_mem _ hcell) hfeed hmarks)
  have hscan := hclosed' hfree
  rw [List.flatMap_append] at hscan
  refine ⟨?_, ?_, fun htears => h (htears.append (.kept c :: inside) _ (by simp) hmarks)⟩
  · rw [List.map_append, Literal.stripByScan_literal hquote hclosed, List.drop_left]
  · rw [List.flatMap_append, Literal.stripByScan_literal hquote hscan, List.drop_left]

/-- **Where no literal goes on behind a folded line break, the same literals are removed from
both sides.** -/
lemma respaced_of_not_tearsLiteral (hcs : GapsBlank cs) (h : ¬TearsLiteral cs) :
    Respaced (Literal.stripByScan (cs.map Cell.byPattern))
      (Literal.stripByScan (cs.flatMap Cell.byScan)) := by
  induction hlength : cs.length using Nat.strongRecOn generalizing cs with
  | ind k ih =>
      cases cs with
      | nil =>
          rw [List.map_nil, List.flatMap_nil, Literal.stripByScan_nil]
          exact .nil
      | cons cell rest =>
          -- Behind a cell that opens no literal the two sides go on.
          have hnext : (Literal.isQuote cell.byPattern = true →
                Literal.closing? cell.byPattern (rest.map Cell.byPattern) 0 = none) →
              Respaced (Literal.stripByScan (rest.map Cell.byPattern))
                (Literal.stripByScan (rest.flatMap Cell.byScan)) := by
            intro hcode
            refine ih rest.length (hlength ▸ Nat.lt_succ_self _) hcs.tail (fun htears => ?_) rfl
            exact h (htears.append [cell] [false] rfl (marks_code hcode))
          rw [List.map_cons, List.flatMap_cons]
          cases cell with
          | gap left =>
              have hleft := hcs left List.mem_cons_self
              have hcode : Literal.isQuote ' ' = true →
                  Literal.closing? ' ' (rest.map Cell.byPattern) 0 = none :=
                fun hquote => absurd hquote (by decide)
              show Respaced (Literal.stripByScan (' ' :: rest.map Cell.byPattern))
                (Literal.stripByScan (left ++ rest.flatMap Cell.byScan))
              rw [Literal.stripByScan_code hcode, stripByScan_blanks hleft.2]
              exact .blanks isBlankRun_space hleft (hnext hcode)
          | kept c =>
              show Respaced (Literal.stripByScan (c :: rest.map Cell.byPattern))
                (Literal.stripByScan (c :: rest.flatMap Cell.byScan))
              by_cases hquote : Literal.isQuote c = true
              · cases closes_sides hquote hcs.tail 0 0 with
                | opened hopen hopen' =>
                    rw [Literal.stripByScan_code fun _ => hopen,
                      Literal.stripByScan_code fun _ => hopen']
                    exact .char c (hnext fun _ => hopen)
                | closed inside after heq hclosed hclosed' =>
                    subst heq
                    rw [Nat.zero_add] at hclosed hclosed'
                    obtain ⟨hpattern, hscan, hafter⟩ :=
                      literal_of_not_tearsLiteral hquote hclosed hclosed' h
                    have hlt : after.length < k := by
                      rw [← hlength, List.length_cons, List.length_append]
                      omega
                    rw [hpattern, hscan]
                    exact ih after.length hlt hcs.tail.of_append hafter rfl
              · have hcode : ∀ t, Literal.isQuote c = true → Literal.closing? c t 0 = none :=
                  fun _ h => absurd h hquote
                rw [Literal.stripByScan_code (hcode _), Literal.stripByScan_code (hcode _)]
                exact .char c (hnext (hcode _))

/-! ### Counts -/

/-- Any way to clean a text leaves what the pattern's side comes to, up to white space. -/
lemma respaced_cleaned {out : Text} (hs : ¬TearsLiteral (cells s)) (hout : Cleaned s out) :
    Respaced (Literal.stripByScan ((cells s).map Cell.byPattern)) out := by
  obtain ⟨commentless, hcomments, hliterals⟩ := hout
  rw [eq_of_literalsRemoved hliterals]
  rcases hcomments with rfl | ⟨limit, hsearch⟩
  · rw [← Comment.flatMap_byScan_cells]
    exact respaced_of_not_tearsLiteral (Comment.gapsBlank_cells s) hs
  · rw [Comment.eq_of_stripByPattern? hsearch]
    exact Respaced.refl _

open CallSite in
/-- **Where folding a line break closes no literal, the way to remove comments has no bearing on
a count.** Each way to count call sites finds the same number after cleaning, however the text
was cleaned. -/
theorem count_eq_of_not_tearsLiteral {operator out out' : Text} (hoperator : IsName operator)
    (hs : ¬TearsLiteral (cells s)) (hout : Cleaned s out) (hout' : Cleaned s out') :
    countByScan operator out = countByScan operator out' ∧
      ∀ limit limit' n m, countByPattern? limit operator out = some n →
        countByPattern? limit' operator out' = some m → n = m := by
  have hrespaced := respaced_cleaned hs hout
  have hrespaced' := respaced_cleaned hs hout'
  refine ⟨?_, fun limit limit' n m hn hm => ?_⟩
  · rw [← countByScan_eq_of_respaced hoperator hrespaced,
      countByScan_eq_of_respaced hoperator hrespaced']
  · have hword : ∀ c, Unicode.isBlank c = true → Unicode.isWord c = false :=
      fun _ => Unicode.isWord_of_isBlank
    calc n = sites Unicode.isWord operator false out := countByPattern?_eq_sites hn
      _ = sites Unicode.isWord operator false
            (Literal.stripByScan ((cells s).map Cell.byPattern)) :=
          (sites_eq_of_respaced hword hoperator hrespaced false).symm
      _ = sites Unicode.isWord operator false out' :=
          sites_eq_of_respaced hword hoperator hrespaced' false
      _ = m := (countByPattern?_eq_sites hm).symm

/-- A call with a folded line break before its bracket, and a literal behind the bracket. -/
def foldedCall : Text :=
  ['f', '/', '*', '*', '/', '\n', '/', '*', '*', '/', '(', '"', '(', '"', ')']

open CallSite in
/-- The folded call is left in one line by the pattern and in two by the scan, and is counted
once in either. -/
theorem count_eq_of_not_tearsLiteral_foldedCall :
    Cleaned foldedCall ['f', ' ', '(', ')'] ∧ Cleaned foldedCall ['f', ' ', '\n', ' ', '(', ')'] ∧
      countByScan ['f'] ['f', ' ', '(', ')'] = countByScan ['f'] ['f', ' ', '\n', ' ', '(', ')'] ∧
      countByPattern? 20 ['f'] ['f', ' ', '(', ')'] = some 1 ∧
      countByPattern? 20 ['f'] ['f', ' ', '\n', ' ', '(', ')'] = some 1 := by
  have hpattern : Comment.stripByPattern? 20 foldedCall =
      some ['f', ' ', '(', '"', '(', '"', ')'] := by decide +kernel
  have hscan : ['f', ' ', '\n', ' ', '(', '"', '(', '"', ')'] =
      Comment.stripByScan foldedCall := by decide +kernel
  have hliterals : Literal.stripByPattern? 20 ['f', ' ', '(', '"', '(', '"', ')'] =
      some ['f', ' ', '(', ')'] := by decide +kernel
  have hliterals' : Literal.stripByPattern? 20 ['f', ' ', '\n', ' ', '(', '"', '(', '"', ')'] =
      some ['f', ' ', '\n', ' ', '(', ')'] := by decide +kernel
  have hcleaned : Cleaned foldedCall ['f', ' ', '(', ')'] :=
    ⟨_, .inr ⟨20, hpattern⟩, .inr ⟨20, hliterals⟩⟩
  have hcleaned' : Cleaned foldedCall ['f', ' ', '\n', ' ', '(', ')'] :=
    ⟨_, .inl hscan, .inr ⟨20, hliterals'⟩⟩
  have hname : IsName ['f'] := ⟨by simp, by simp [Unicode.isBlank]⟩
  have hwhole : ¬TearsLiteral (cells foldedCall) := by decide +kernel
  obtain ⟨hcount, hsearch⟩ := count_eq_of_not_tearsLiteral hname hwhole hcleaned hcleaned'
  have hfound : countByPattern? 20 ['f'] ['f', ' ', '(', ')'] = some 1 := by decide +kernel
  have hfound' : ∃ n, countByPattern? 20 ['f'] ['f', ' ', '\n', ' ', '(', ')'] = some n :=
    ⟨1, by decide +kernel⟩
  obtain ⟨n, hn⟩ := hfound'
  obtain rfl := hsearch 20 20 1 n hfound hn
  exact ⟨hcleaned, hcleaned', hcount, hfound, hn⟩

/-- A template on two lines, with a comment at the end of the first and one at the start of the
second, where a call follows. -/
def tornTemplate : Text :=
  [Literal.backquote, '/', '*', '*', '/', '\n', '/', '*', '*', '/', 'f', '(', Literal.backquote]

open CallSite in
/-- **Falling back changes a count.** The pattern folds the template into one line, which makes
it a literal and removes it with the call; the scan leaves two lines, and the call is
counted. -/
theorem counts_differ_tornTemplate :
    IsName ['f'] ∧ TearsLiteral (cells tornTemplate) ∧
      ∃ folded, Comment.stripByPattern? 20 tornTemplate = some folded ∧
        Literal.stripByPattern? 20 folded = some [] ∧ countByPattern? 20 ['f'] [] = some 0 ∧
      ∃ unfolded, Comment.stripByScan tornTemplate = unfolded ∧
        Literal.stripByPattern? 20 unfolded = some unfolded ∧
        countByPattern? 20 ['f'] unfolded = some 1 := by
  refine ⟨⟨by simp, by simp [Unicode.isBlank]⟩, by decide +kernel, ?_⟩
  refine ⟨[Literal.backquote, ' ', 'f', '(', Literal.backquote], by decide +kernel,
    by decide +kernel, by decide +kernel, ?_⟩
  exact ⟨[Literal.backquote, ' ', '\n', ' ', 'f', '(', Literal.backquote], by decide +kernel,
    by decide +kernel, by decide +kernel⟩

end CallCensus.Cleaning
