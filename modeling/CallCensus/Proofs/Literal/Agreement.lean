import CallCensus.Literal
import CallCensus.Proofs.Pattern.Machine

/-!
The pattern for literals removes the same literals as the scan.

After an opening quote the pattern tries the same quote again before every further character.
A character, with a backslash before it if there is one, has only one way to match, so the
first place where the quote comes next is the one that the scan finds.

* `closing?_cons`, `closing?_backslash`, `pieces_literal`, `pieces_code`: one step of the scan;
* `ends_character`, `ends_character_backslash`: the one way to match a character of a literal;
* `taken_first?_few`: the rest of a literal, after its opening quote;
* `stripByPattern?_eq_stripByScan`: a search that does not give up leaves what the scan leaves;
* `strip_agrees`: both ways to remove literals agree, whatever the limit.
-/

namespace CallCensus.Literal

open Pattern

variable {quote c escaped : Char} {rest s : Text} {n : ℕ}

/-! ### One step of the scan -/

lemma closing?_newline (h : '\n' ≠ quote) : closing? quote ('\n' :: rest) n = none := by
  cases rest <;> simp [closing?, h]

lemma closing?_backslash (h : '\\' ≠ quote) (hescaped : escaped ≠ '\n') :
    closing? quote ('\\' :: escaped :: rest) n = closing? quote rest (n + 2) := by
  simp [closing?, h, hescaped]

lemma backslash_ne (hquote : isQuote quote = true) : '\\' ≠ quote := by
  rintro rfl
  cases hquote

lemma closing?_last (hquote : isQuote quote = true) (n : ℕ) : closing? quote ['\\'] n = none := by
  simp [closing?, backslash_ne hquote]

lemma closing?_backslash_newline (hquote : isQuote quote = true) (s : Text) (n : ℕ) :
    closing? quote ('\\' :: '\n' :: s) n = none := by
  simp [closing?, backslash_ne hquote]

lemma closing?_cons (hquote : c ≠ quote) (hnewline : c ≠ '\n') (hbackslash : c ≠ '\\') :
    closing? quote (c :: rest) n = closing? quote rest (n + 1) := by
  cases rest <;> simp [closing?, hquote, hnewline, hbackslash]

/-- The scan counts from the characters already counted. -/
lemma closing?_succ (quote : Char) (s : Text) (n : ℕ) :
    closing? quote s (n + 1) = (closing? quote s n).map (· + 1) := by
  fun_induction closing? quote s n with
  | case1 => rfl
  | case2 rest n => exact closing?_quote quote rest (n + 1)
  | case3 rest n h => exact closing?_newline h
  | case4 n h => simp [closing?, h]
  | case5 n rest h => simp [closing?, h]
  | case6 n escaped rest hescaped h _ ih => rw [closing?_backslash h hescaped, ih]
  | case7 c rest n hquote hnewline hbackslash ih =>
      rw [closing?_cons hquote hnewline hbackslash, ih]

/-- A literal is the first piece where one starts. -/
lemma pieces_literal (hquote : isQuote c = true) (h : closing? c rest 0 = some n) :
    pieces (c :: rest) = .literal (c :: rest.take n) :: pieces (rest.drop n) := by
  have hpiece : pieceAt c rest = (.literal (c :: rest.take n), n) := by
    rw [pieceAt, if_pos hquote, h]
  rw [pieces, Text.pieces_cons, hpiece]
  rfl

/-- A character that starts no literal is a piece of its own. -/
lemma pieces_code (h : isQuote c = true → closing? c rest 0 = none) :
    pieces (c :: rest) = .code c :: pieces rest := by
  have hpiece : pieceAt c rest = (.code c, 0) := by
    rw [pieceAt]
    split_ifs with hquote
    · rw [h hquote]
    · rfl
  rw [pieces, Text.pieces_cons, hpiece]
  rfl

@[simp] lemma pieces_nil : pieces [] = [] :=
  Text.pieces_nil pieceAt

@[simp] lemma stripByScan_nil : stripByScan [] = [] := by
  rw [stripByScan, pieces_nil]
  rfl

lemma stripByScan_literal (hquote : isQuote c = true) (h : closing? c rest 0 = some n) :
    stripByScan (c :: rest) = stripByScan (rest.drop n) := by
  rw [stripByScan, pieces_literal hquote h]
  rfl

lemma stripByScan_code (h : isQuote c = true → closing? c rest 0 = none) :
    stripByScan (c :: rest) = c :: stripByScan rest := by
  rw [stripByScan, pieces_code h]
  rfl

/-! ### One step of the pattern -/

variable {before : Option Char} {groups : List (ℕ × Span)}

lemma ends_character_backslash :
    character.ends ⟨before, '\\' :: escaped :: rest, n, groups⟩ =
      if escaped = '\n' then [] else [⟨some escaped, rest, n + 2, groups⟩] := by
  by_cases h : escaped = '\n' <;>
    simp [character, ends, Pattern.optional, Pattern.char, noneOf, Cursor.next?,
      Cursor.advance, h]

lemma ends_character_last : character.ends ⟨before, ['\\'], n, groups⟩ = [] := by
  simp [character, ends, Pattern.optional, Pattern.char, noneOf, Cursor.next?, Cursor.advance]

lemma ends_character (hbackslash : c ≠ '\\') :
    character.ends ⟨before, c :: rest, n, groups⟩ =
      if c = '\n' then [] else [⟨some c, rest, n + 1, groups⟩] := by
  by_cases h : c = '\n' <;>
    simp [character, ends, Pattern.optional, Pattern.char, noneOf, Cursor.next?,
      Cursor.advance, h, hbackslash]

lemma first?_same {r : Text} (hgroups : groups.lookup 1 = some ⟨quote :: r, 1⟩) :
    (same 1).first? ⟨before, s, n, groups⟩ =
      Cursor.next? (· == quote) ⟨before, s, n, groups⟩ := by
  rw [first?, ends, Cursor.afterGroup?, Cursor.group?, hgroups]
  simp only [Cursor.afterCopy?]
  cases Cursor.next? (· == quote) ⟨before, s, n, groups⟩ <;> simp

/-- **The rest of a literal ends where the scan says.** -/
lemma taken_first?_few {r : Text} (hgroups : groups.lookup 1 = some ⟨quote :: r, 1⟩)
    (before : Option Char) (s : Text) (n : ℕ) :
    ((seq (few character) (same 1)).first? ⟨before, s, n, groups⟩).map Cursor.taken =
      closing? quote s n := by
  -- Both read the text in the same steps: the cases are those of the scan.
  fun_induction closing? quote s n generalizing before with
  | case1 =>
      rw [first?_few_seq, first?_same hgroups]
      simp [Cursor.next?, character, ends, Pattern.optional]
  | case2 rest n =>
      rw [first?_few_seq, first?_same hgroups]
      simp [Cursor.next?, Cursor.advance]
  | case3 rest n h =>
      rw [first?_few_seq, first?_same hgroups, ends_character (by decide)]
      simp [Cursor.next?, h]
  | case4 n h =>
      rw [first?_few_seq, first?_same hgroups, ends_character_last]
      simp [Cursor.next?, h]
  | case5 n rest h =>
      rw [first?_few_seq, first?_same hgroups, ends_character_backslash, if_pos rfl]
      simp [Cursor.next?, h]
  | case6 n escaped rest hescaped h _ ih =>
      rw [first?_few_seq, first?_same hgroups, ends_character_backslash, if_neg hescaped]
      have hlt : rest.length < rest.length + 1 + 1 := by omega
      simpa [Cursor.next?, h, hlt] using ih (some escaped)
  | case7 c rest n hquote hnewline hbackslash ih =>
      rw [first?_few_seq, first?_same hgroups, ends_character hbackslash, if_neg hnewline]
      simpa [Cursor.next?, hquote] using ih (some c)

/-- A literal is matched where the scan finds one, as far as there. -/
lemma taken_first? (before : Option Char) (c : Char) (rest : Text) :
    (pattern.first? (.start before (c :: rest))).map Cursor.taken =
      if isQuote c then (closing? c rest 0).map (· + 1) else none := by
  have hopen : (group 1 (one isQuote)).ends (.start before (c :: rest)) =
      if isQuote c then [⟨some c, rest, 1, [(1, ⟨c :: rest, 1⟩)]⟩] else [] := by
    cases h : isQuote c <;>
      simp [ends, Cursor.start, Cursor.next?, Cursor.advance, Cursor.close, h]
  have hseq : pattern = seq (group 1 (one isQuote)) (seq (few character) (same 1)) := rfl
  rw [hseq, first?_seq, hopen]
  split_ifs
  · have hgroups : [(1, (⟨c :: rest, 1⟩ : Span))].lookup 1 = some ⟨c :: rest, 1⟩ := rfl
    rw [← closing?_succ, ← taken_first?_few hgroups (some c) rest 1]
    simp only [List.findSome?_cons, List.findSome?_nil]
    cases (seq (few character) (same 1)).first? _ <;> rfl
  · rfl

/-! ### All literals of a text -/

/-- What the pattern leaves of a text is what the scan leaves. -/
lemma flatMap_found (before : Option Char) (s : Text) :
    (found pattern before s).flatMap segmentKept = stripByScan s := by
  induction hn : s.length using Nat.strongRecOn generalizing s before with
  | ind n ih =>
      cases s with
      | nil => simp [found]
      | cons c rest =>
          have hlt : ∀ k, (rest.drop k).length < n := hn ▸ Text.length_drop_lt c rest
          have htaken := taken_first? before c rest
          cases hfirst : pattern.first? (.start before (c :: rest)) with
          | none =>
              have hcode : isQuote c = true → closing? c rest 0 = none := by
                intro hquote
                rw [hfirst, if_pos hquote] at htaken
                exact Option.map_eq_none_iff.1 htaken.symm
              rw [stripByScan_code hcode, ← ih _ (hlt 0) (some c) rest rfl,
                found_of_none hfirst]
              rfl
          | some final =>
              rw [hfirst, Option.map_some] at htaken
              split_ifs at htaken with hquote
              obtain ⟨k, hclosing, hk⟩ := Option.map_eq_some_iff.1 htaken.symm
              have hreaches := reaches_of_mem_ends _ _ _ (mem_ends_of_first? hfirst)
              have hrest : final.rest = (c :: rest).drop final.taken := hreaches.rest_eq_drop
              have hlength : final.taken + final.rest.length = 0 + (c :: rest).length :=
                hreaches.taken_add_length
              have hleft : rest.drop k = final.rest := by rw [hrest, ← hk, List.drop_succ_cons]
              have hshorter : final.rest.length < (c :: rest).length := by omega
              rw [stripByScan_literal hquote hclosing, hleft, found_of_first? hfirst hshorter,
                ← ih _ (hn ▸ hshorter) final.before final.rest rfl]
              rfl

/-- **A search for literals that does not give up removes those that the scan removes.** -/
theorem stripByPattern?_eq_stripByScan {limit : ℕ} {out : Text}
    (h : stripByPattern? limit s = some out) : out = stripByScan s :=
  (eq_of_map_segments? h).trans (flatMap_found none s)

/-- Whatever the limit, what is left is what the scan leaves. -/
lemma strip_eq_stripByScan (limit : ℕ) (s : Text) : strip limit s = stripByScan s := by
  have hmatches : id ((found pattern none s).flatMap segmentKept) = id (stripByScan s) :=
    flatMap_found none s
  exact view_getD_segments? id hmatches limit

/-- **Both ways to remove literals agree.** The scan leaves what the matches of the pattern
leave, and so does every search that does not give up. So no limit changes what is left. -/
theorem strip_agrees (s : Text) :
    (found pattern none s).flatMap segmentKept = stripByScan s ∧
      (∀ limit out, stripByPattern? limit s = some out → out = stripByScan s) ∧
      ∀ limit, strip limit s = stripByScan s := by
  refine ⟨flatMap_found none s, fun limit out => stripByPattern?_eq_stripByScan, ?_⟩
  exact view_getD_segments? id (flatMap_found none s)

/-- A literal in double quotes with an escaped quote and an apostrophe in it, one in backquotes
with an escaped letter of two bytes and a double quote, a lone apostrophe that an escaped line
feed leaves open, and a lone double quote before a backslash that ends the text. -/
def mixedQuotes : Text :=
  ['"', '\\', '"', '\'', '\\', '\\', '"', ' ', backquote, '\\', 'é', '"', backquote, 'x', '\'',
    '\\', '\n', 'y', '"', 'z', '\\']

/-- The search finishes on the mixed quotes, and leaves what the scan leaves. -/
theorem strip_agrees_mixedQuotes :
    stripByPattern? 20 mixedQuotes = some [' ', 'x', '\'', '\\', '\n', 'y', '"', 'z', '\\'] ∧
      [' ', 'x', '\'', '\\', '\n', 'y', '"', 'z', '\\'] = stripByScan mixedQuotes := by
  have hsearch : stripByPattern? 20 mixedQuotes =
      some [' ', 'x', '\'', '\\', '\n', 'y', '"', 'z', '\\'] := by decide +kernel
  obtain ⟨-, hagree, -⟩ := strip_agrees mixedQuotes
  exact ⟨hsearch, hagree 20 _ hsearch⟩

end CallCensus.Literal
