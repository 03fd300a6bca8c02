import CallCensus.Proofs.Literal.Agreement

/-!
Literals are removed line by line.

A literal is closed on the line on which it is opened, or not at all. So a line feed is always a
piece of its own, the pieces before it are those of the text before it, and those behind it are
those of the text behind it, whatever quotes and backslashes the lines end with.

* `closing?_append_newline`: what comes behind a line feed closes no literal;
* `exists_body_of_closing?`, `pieces_induction`: a literal lies on one line, and a text is read
  one literal or one character of code at a time;
* `pieces_append_newline`: the pieces of two lines;
* `splitOn_stripByScan`: the lines of what is left are what is left of the lines;
* `strip_linewise`: the same for both ways to remove literals.
-/

namespace CallCensus.Literal

open Pattern

variable {quote c : Char} {s a b : Text} {n m : ℕ}

/-! ### Where a literal is closed -/

lemma ne_newline_of_isQuote (h : isQuote quote = true) : quote ≠ '\n' := by
  rintro rfl
  cases h

/-- **What comes behind a line feed closes no literal.** -/
lemma closing?_append_newline (hquote : isQuote quote = true) (a b : Text) (n : ℕ) :
    closing? quote (a ++ '\n' :: b) n = closing? quote a n := by
  have hnewline := ne_newline_of_isQuote hquote
  fun_induction closing? quote a n with
  | case1 => exact closing?_newline hnewline.symm
  | case2 rest n => exact closing?_quote quote (rest ++ '\n' :: b) n
  | case3 rest n h => exact closing?_newline h
  -- A backslash at the end of the line would escape the line feed, which it cannot.
  | case4 n h => simp [closing?, h]
  | case5 n rest h => simp [closing?, h]
  | case6 n escaped rest hescaped h _ ih =>
      rw [List.cons_append, List.cons_append, closing?_backslash h hescaped, ih]
  | case7 c rest n hc hfeed hbackslash ih =>
      rw [List.cons_append, closing?_cons hc hfeed hbackslash, ih]

/-- A literal is closed by its quote, on the line on which it is opened. -/
lemma exists_body_of_closing? (h : closing? quote s n = some m) :
    ∃ body rest, s = body ++ quote :: rest ∧ '\n' ∉ body ∧ m = n + body.length + 1 := by
  fun_induction closing? quote s n with
  | case1 => cases h
  | case2 rest n => exact ⟨[], rest, rfl, List.not_mem_nil, (Option.some_inj.1 h).symm⟩
  | case3 => cases h
  | case4 => cases h
  | case5 => cases h
  | case6 n escaped rest hescaped _ _ ih =>
      obtain ⟨body, left, rfl, hfeed, rfl⟩ := ih h
      refine ⟨'\\' :: escaped :: body, left, rfl, by simp [hfeed, Ne.symm hescaped], ?_⟩
      simp only [List.length_cons]
      omega
  | case7 c rest n _ hnewline _ ih =>
      obtain ⟨body, left, rfl, hfeed, rfl⟩ := ih h
      refine ⟨c :: body, left, rfl, by simp [hfeed, Ne.symm hnewline], ?_⟩
      rw [List.length_cons]
      omega

lemma pieces_literal_append {body rest : Text} (hquote : isQuote c = true)
    (h : closing? c (body ++ c :: rest) 0 = some (body.length + 1)) :
    pieces (c :: (body ++ c :: rest)) = .literal (c :: (body ++ [c])) :: pieces rest := by
  have hcut : body ++ c :: rest = (body ++ [c]) ++ rest := by simp
  rw [pieces_literal hquote h, hcut, List.take_left' (by simp), List.drop_left' (by simp)]

/-- What holds of the empty text, and of a text that starts with a literal or with a character of
code when it holds of what comes behind, holds of every text. -/
lemma pieces_induction {P : Text → Prop} (nil : P [])
    (literal : ∀ c body rest, isQuote c = true → '\n' ∉ body →
      closing? c (body ++ c :: rest) 0 = some (body.length + 1) → P rest →
        P (c :: (body ++ c :: rest)))
    (code : ∀ c rest, (isQuote c = true → closing? c rest 0 = none) → P rest → P (c :: rest))
    (s : Text) : P s := by
  induction hlength : s.length using Nat.strongRecOn generalizing s with
  | ind k ih =>
      cases s with
      | nil => exact nil
      | cons c rest =>
          rw [List.length_cons] at hlength
          by_cases hopen : isQuote c = true → closing? c rest 0 = none
          · exact code c rest hopen (ih rest.length (by omega) rest rfl)
          · obtain ⟨hquote, hsome⟩ := Classical.not_imp.1 hopen
            obtain ⟨n, hn⟩ := Option.ne_none_iff_exists'.1 hsome
            obtain ⟨body, left, rfl, hfeed, rfl⟩ := exists_body_of_closing? hn
            rw [List.length_append, List.length_cons] at hlength
            rw [Nat.zero_add] at hn
            exact literal c body left hquote hfeed hn (ih left.length (by omega) left rfl)

/-! ### Two lines -/

/-- **The pieces of two lines** are those of either, and the line feed between them. -/
lemma pieces_append_newline (a b : Text) :
    pieces (a ++ '\n' :: b) = pieces a ++ .code '\n' :: pieces b := by
  induction a using pieces_induction with
  | nil =>
      have hfeed : isQuote '\n' = true → closing? '\n' b 0 = none := by
        intro h
        cases h
      rw [List.nil_append, pieces_code hfeed, pieces_nil, List.nil_append]
  | literal c body rest hquote hfeed hclosing ih =>
      have hcut : c :: (body ++ c :: rest) ++ '\n' :: b =
          c :: (body ++ c :: (rest ++ '\n' :: b)) := by simp
      have hclosing' : closing? c (body ++ c :: (rest ++ '\n' :: b)) 0 =
          some (body.length + 1) := by
        rw [← hclosing, ← closing?_append_newline hquote (body ++ c :: rest) b]
        simp
      rw [hcut, pieces_literal_append hquote hclosing', pieces_literal_append hquote hclosing, ih,
        List.cons_append]
  | code c rest hopen ih =>
      have hopen' : isQuote c = true → closing? c (rest ++ '\n' :: b) 0 = none := by
        intro hquote
        rw [closing?_append_newline hquote, hopen hquote]
      rw [List.cons_append, pieces_code hopen', pieces_code hopen, ih, List.cons_append]

/-- What is left of two lines. -/
lemma stripByScan_append_newline (a b : Text) :
    stripByScan (a ++ '\n' :: b) = stripByScan a ++ '\n' :: stripByScan b := by
  rw [stripByScan, pieces_append_newline, List.flatMap_append, List.flatMap_cons]
  rfl

/-! ### All lines -/

/-- Removing literals adds nothing and moves nothing. -/
lemma stripByScan_sublist (s : Text) : (stripByScan s).Sublist s := by
  have hkept : ∀ ps : List Piece, (ps.flatMap Piece.kept).Sublist (ps.flatMap Piece.source) := by
    intro ps
    induction ps with
    | nil => exact .slnil
    | cons piece ps ih =>
        rw [List.flatMap_cons, List.flatMap_cons]
        refine List.Sublist.append ?_ ih
        cases piece with
        | code c => exact .refl _
        | literal u => exact List.nil_sublist _
  have h := hkept (pieces s)
  rwa [source_pieces] at h

lemma splitOn_of_not_mem (h : '\n' ∉ s) : s.splitOn '\n' = [s] := by
  have hsplit := List.splitOn_intercalate '\n' (by simpa using h) (List.cons_ne_nil s [])
  rwa [List.intercalate_singleton] at hsplit

/-- **The lines of what is left are what is left of the lines.** -/
lemma splitOn_stripByScan (s : Text) :
    (stripByScan s).splitOn '\n' = (s.splitOn '\n').map stripByScan := by
  induction hlength : s.length using Nat.strongRecOn generalizing s with
  | ind k ih =>
      by_cases hfeed : '\n' ∈ s
      · obtain ⟨a, b, rfl⟩ := List.append_of_mem hfeed
        have hsplit : ∀ a b : Text,
            (a ++ '\n' :: b).splitOn '\n' = a.splitOn '\n' ++ b.splitOn '\n' := by
          intro a b
          simp only [List.splitOn_eq_splitOnP]
          exact List.splitOnP_append_cons a b rfl
        rw [List.length_append, List.length_cons] at hlength
        rw [stripByScan_append_newline, hsplit, hsplit, List.map_append,
          ih a.length (by omega) a rfl, ih b.length (by omega) b rfl]
      · have hleft : '\n' ∉ stripByScan s := fun h => hfeed ((stripByScan_sublist s).subset h)
        rw [splitOn_of_not_mem hfeed, splitOn_of_not_mem hleft]
        rfl

/-- **Literals are removed line by line.** Of two lines, either way to remove literals leaves what
it leaves of the first, the line feed, and what it leaves of the second, whatever the limits; and so
for all lines of a text, of which none is lost. -/
theorem strip_linewise :
    (∀ a b : Text,
      stripByScan (a ++ '\n' :: b) = stripByScan a ++ '\n' :: stripByScan b ∧
      (found pattern none (a ++ '\n' :: b)).flatMap segmentKept =
        (found pattern none a).flatMap segmentKept ++
          '\n' :: (found pattern none b).flatMap segmentKept ∧
      (∀ limit first second out left right,
        stripByPattern? limit (a ++ '\n' :: b) = some out →
        stripByPattern? first a = some left → stripByPattern? second b = some right →
          out = left ++ '\n' :: right) ∧
      ∀ limit first second,
        strip limit (a ++ '\n' :: b) = strip first a ++ '\n' :: strip second b) ∧
    ∀ limit s, (strip limit s).splitOn '\n' = (s.splitOn '\n').map (strip limit) := by
  have hstrip : ∀ limit, strip limit = stripByScan :=
    fun limit => funext (strip_eq_stripByScan limit)
  refine ⟨fun a b => ⟨stripByScan_append_newline a b, ?_, ?_, ?_⟩, fun limit s => ?_⟩
  · rw [flatMap_found, flatMap_found, flatMap_found, stripByScan_append_newline]
  · intro limit first second out left right hout hleft hright
    rw [stripByPattern?_eq_stripByScan hout, stripByPattern?_eq_stripByScan hleft,
      stripByPattern?_eq_stripByScan hright, stripByScan_append_newline]
  · intro limit first second
    rw [hstrip, hstrip, hstrip, stripByScan_append_newline]
  · rw [hstrip, splitOn_stripByScan]

/-- A line that ends with a backslash in an open literal. -/
def openEnd : Text :=
  ['\'', 'x', '\\']

/-- A line that starts with the quote of the open literal and ends with another lone quote. -/
def closedStart : Text :=
  ['\'', 'y', '\'', ' ', backquote]

/-- The searches finish on the open end, on the closed start, and on the two lines together, and
what is left of the lines is what is left of each. -/
theorem strip_linewise_openEnd :
    ∃ out left right, stripByPattern? 20 (openEnd ++ '\n' :: closedStart) = some out ∧
      stripByPattern? 20 openEnd = some left ∧ stripByPattern? 20 closedStart = some right ∧
      left = ['\'', 'x', '\\'] ∧ right = [' ', backquote] ∧ out = left ++ '\n' :: right := by
  have hout : stripByPattern? 20 (openEnd ++ '\n' :: closedStart) =
      some ['\'', 'x', '\\', '\n', ' ', backquote] := by decide +kernel
  have hleft : stripByPattern? 20 openEnd = some ['\'', 'x', '\\'] := by decide +kernel
  have hright : stripByPattern? 20 closedStart = some [' ', backquote] := by decide +kernel
  obtain ⟨-, -, hlines, -⟩ := strip_linewise.1 openEnd closedStart
  exact ⟨_, _, _, hout, hleft, hright, rfl, rfl, hlines 20 20 20 _ _ _ hout hleft hright⟩

end CallCensus.Literal
