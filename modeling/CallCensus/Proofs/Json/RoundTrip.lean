import CallCensus.Json.Reader
import CallCensus.Json.Writer
import CallCensus.Proofs.Dict
import Mathlib.Data.List.TakeDrop

/-!
Reading back what was written.

What is written for a value is read back as the value wherever it may stand in an object: before a
comma, before the end of the object, or at the end of the text. Strings come back through every
escape, counts through their digits, and objects entry by entry in the order in which they are
written, so that nothing is lost when keys come twice or in another order.

* `stringBody_escaped`: strings;
* `number_writeCount`: counts;
* `pairs`, `dict_eq`: objects as lists of entries, in the order of the text;
* `ReadsBack`, `readsBack_pairs`, `readsBack_dict`: objects of values that are read back.
-/

namespace CallCensus.Json

variable {α β : Type} {c : Char} {s rest : Text} {n steps : ℕ}

/-! ### Strings -/

/-- A numeric escape of a control character. -/
lemma unicodeEscape_control (hc : c.toNat < 0x20) (rest : Text) :
    unicodeEscape ('0' :: '0' :: hexDigit (c.toNat / 16) :: hexDigit (c.toNat % 16) :: rest) =
      .ok (c, rest) := by
  have hall : ∀ n < 0x20,
      Text.utf8Length ['0', '0', hexDigit (n / 16), hexDigit (n % 16)] = 4 ∧
        hexValue? ['0', '0', hexDigit (n / 16), hexDigit (n % 16)] = some n := by decide
  obtain ⟨hlength, hvalue⟩ := hall c.toNat hc
  have hescape : hexEscape ('0' :: '0' :: hexDigit (c.toNat / 16) :: hexDigit (c.toNat % 16) ::
      rest) = .ok (c.toNat, rest) := by
    simp [hexEscape, hlength, hvalue]
  have hlow : isLowSurrogate c.toNat = false := by simp [isLowSurrogate]; omega
  have hhigh : isHighSurrogate c.toNat = false := by simp [isHighSurrogate]; omega
  simp [unicodeEscape, hescape, hlow, hhigh]

/-- A character is read back from the way it stands in a string. -/
lemma stringOnto_escaped (c : Char) (done : List Char) (steps : ℕ) (rest : Text) :
    stringOnto done (steps + 1) (escaped c ++ rest) = stringOnto (c :: done) steps rest := by
  rw [escaped]
  split_ifs with h1 h2 h3 h4 h5 h6 h7 h8
  · subst h1
    rfl
  · subst h2
    rfl
  · subst h3
    rfl
  · subst h4
    rfl
  · subst h5
    rfl
  · subst h6
    rfl
  · subst h7
    rfl
  · have hescape : escape ('u' :: '0' :: '0' :: hexDigit (c.toNat / 16) ::
        hexDigit (c.toNat % 16) :: rest) = .ok (c, rest) := unicodeEscape_control h8 rest
    simp [stringOnto, hescape]
  · rw [List.singleton_append, stringOnto, if_neg h8]
    · exact h1
    · exact h2

/-- The characters of a string are read back after those already read. -/
lemma stringOnto_flatMap_escaped (s : Text) (done : List Char) (hsteps : s.length < steps)
    (rest : Text) : stringOnto done steps (s.flatMap escaped ++ '"' :: rest) =
      .ok (String.ofList (done.reverse ++ s), rest) := by
  induction s generalizing done steps with
  | nil =>
      obtain ⟨steps, rfl⟩ := Nat.exists_eq_add_of_lt hsteps
      simp [stringOnto]
  | cons c s ih =>
      obtain ⟨steps, rfl⟩ : ∃ k, steps = k + 1 := ⟨steps - 1, by omega⟩
      rw [List.flatMap_cons, List.append_assoc, stringOnto_escaped,
        ih _ (by simpa using hsteps)]
      simp

lemma one_le_length_escaped (c : Char) : 1 ≤ (escaped c).length := by
  rw [escaped]
  split_ifs <;> simp

lemma length_le_flatMap_escaped (s : Text) : s.length ≤ (s.flatMap escaped).length := by
  induction s with
  | nil => simp
  | cons c s ih =>
      have hc := one_le_length_escaped c
      rw [List.flatMap_cons, List.length_append, List.length_cons]
      omega

/-- **A string is read back.** -/
lemma stringBody_escaped (s : String) (rest : Text) :
    stringBody (s.toList.flatMap escaped ++ '"' :: rest) = .ok (s, rest) := by
  have hlength := length_le_flatMap_escaped s.toList
  have hsteps : s.toList.length <
      (s.toList.flatMap escaped ++ '"' :: rest).length + 1 := by
    rw [List.length_append]
    omega
  rw [stringBody, stringOnto_flatMap_escaped s.toList [] hsteps]
  simp

/-! ### Counts -/

/-- A text that does not go on with a digit or another part of a number. -/
def EndsNumber (rest : Text) : Prop :=
  ∀ c t, rest = c :: t → c.isDigit = false ∧ c ≠ '.' ∧ c ≠ 'e' ∧ c ≠ 'E'

/-- Digits are taken up to the first character that is none. -/
lemma digits_append {ds : Text} (hds : ∀ c ∈ ds, c.isDigit = true) (hrest : EndsNumber rest) :
    digits (ds ++ rest) = (ds, rest) := by
  rw [digits, List.span_eq_takeWhile_dropWhile, List.takeWhile_append_of_pos hds,
    List.dropWhile_append_of_pos hds]
  cases rest with
  | nil => simp
  | cons c t =>
      have hc := (hrest c t rfl).1
      simp [hc]

lemma isDigit_of_mem_writeCount {n : UInt64} (hc : c ∈ writeCount n) : c.isDigit = true :=
  Nat.isDigit_of_mem_toDigits (by decide) (by decide) hc

lemma exists_writeCount_eq_cons (n : UInt64) :
    ∃ c t, writeCount n = c :: t ∧ c.isDigit = true := by
  obtain ⟨c, t, hcount⟩ : ∃ c t, writeCount n = c :: t :=
    List.exists_cons_of_ne_nil Nat.toDigits_ne_nil
  exact ⟨c, t, hcount, isDigit_of_mem_writeCount (by rw [hcount]; exact List.mem_cons_self)⟩

lemma decimalValue_toDigits (n : ℕ) : decimalValue (Nat.toDigits 10 n) = n := by
  have h := Nat.ofDigitChars_ten_toDigits (n := n)
  rw [Nat.ofDigitChars_eq_foldl] at h
  simpa only [decimalValue, Nat.mul_comm 10] using h

/-- No zero stands before other digits. -/
lemma head?_toDigits (hn : 0 < n) : (Nat.toDigits 10 n).head? ≠ some '0' := by
  induction n using Nat.strongRecOn with
  | ind n ih =>
      by_cases hlt : n < 10
      · have hall : ∀ n < 10, 0 < n → n.digitChar ≠ '0' := by decide
        rw [Nat.toDigits_of_lt_base hlt, List.head?_cons]
        simpa using hall n hlt hn
      · obtain ⟨d, ds, hds⟩ :=
          List.exists_cons_of_ne_nil (Nat.toDigits_ne_nil (n := n / 10) (b := 10))
        have hhead := ih (n / 10) (by omega) (by omega)
        rw [hds] at hhead
        rw [Nat.toDigits_of_base_le (by decide) (by omega), hds]
        exact hhead

/-- The digits of a count are the whole part of a number. -/
lemma wholePart_writeCount (n : UInt64) (hrest : EndsNumber rest) :
    wholePart (writeCount n ++ rest) = .ok (writeCount n, rest) := by
  have hdigits := digits_append (fun _ => isDigit_of_mem_writeCount (n := n)) hrest
  rw [wholePart, hdigits]
  split
  · rename_i hnil
    exact absurd (congrArg Prod.fst hnil) Nat.toDigits_ne_nil
  · rename_i d ds s hzero
    have hwrite : writeCount n = '0' :: d :: ds := congrArg Prod.fst hzero
    have hpos : 0 < n.toNat := by
      refine Nat.pos_of_ne_zero fun h => ?_
      rw [writeCount, h] at hwrite
      cases hwrite
    exact absurd (by rw [← writeCount, hwrite]; rfl) (head?_toDigits hpos)
  · rename_i hds
    cases hds
    rfl

/-- A number does not go on where its digits end. -/
lemma fractionPart_of_endsNumber (hrest : EndsNumber rest) :
    fractionPart rest = .ok (none, rest) := by
  cases rest with
  | nil => rfl
  | cons c t =>
      have hc := (hrest c t rfl).2.1
      rw [fractionPart]
      intro t' heq
      cases heq
      exact hc rfl

lemma exponentPart_of_endsNumber (hrest : EndsNumber rest) :
    exponentPart rest = .ok (none, rest) := by
  cases rest with
  | nil => rfl
  | cons c t =>
      obtain ⟨-, -, hlower, hupper⟩ := hrest c t rfl
      simp [exponentPart, hlower, hupper]

/-- A count is read as the parts of a number. -/
lemma numeral_writeCount (n : UInt64) (hrest : EndsNumber rest) :
    numeral (writeCount n ++ rest) = .ok (⟨false, writeCount n, none, none⟩, rest) := by
  have hwhole := wholePart_writeCount n hrest
  obtain ⟨c, t, hcount, hdigit⟩ := exists_writeCount_eq_cons n
  have hc : c ≠ '-' := by
    rintro rfl
    cases hdigit
  rw [hcount, List.cons_append] at hwhole
  rw [hcount, List.cons_append]
  simp [numeral, hc, hwhole, fractionPart_of_endsNumber hrest, exponentPart_of_endsNumber hrest]

/-- Digits of which all fit are significant. -/
lemma significand_eq (s : Text) (n : ℕ) (h : s.foldl (fun n c => n * 10 + (c.toNat - '0'.toNat)) n ≤
    Numeral.maxCount) : Numeral.significand n s =
      (s.foldl (fun n c => n * 10 + (c.toNat - '0'.toNat)) n, 0) := by
  have hmono : ∀ (s : Text) (n : ℕ),
      n ≤ s.foldl (fun n c => n * 10 + (c.toNat - '0'.toNat)) n := by
    intro s
    induction s with
    | nil => exact fun n => Nat.le_refl n
    | cons c s ih =>
        intro n
        rw [List.foldl_cons]
        exact Nat.le_trans (by omega) (ih _)
  induction s generalizing n with
  | nil => rfl
  | cons c s ih =>
      rw [List.foldl_cons] at h
      have hle := Nat.le_trans (hmono s _) h
      rw [Numeral.significand, if_neg (Nat.not_lt.2 hle), ih _ h, List.foldl_cons]

/-- **A count is read back.** -/
lemma number_writeCount (n : UInt64) (hrest : EndsNumber rest) :
    number (writeCount n ++ rest) = .ok (some n.toNat, rest) := by
  have hvalue : decimalValue (writeCount n) = n.toNat := decimalValue_toDigits n.toNat
  have hle : n.toNat ≤ Numeral.maxCount := by
    have := n.toNat_lt
    rw [Numeral.maxCount]
    omega
  have hsignificand : Numeral.significand 0 (writeCount n) = (n.toNat, 0) := by
    rw [significand_eq (writeCount n) 0 (by rw [← decimalValue, hvalue]; exact hle),
      ← decimalValue, hvalue]
  have hrange : (⟨false, writeCount n, none, none⟩ : Numeral).inRange = true := by
    simp [Numeral.inRange, hsignificand]
  have hcount : (⟨false, writeCount n, none, none⟩ : Numeral).count? = some n.toNat := by
    simp [Numeral.count?, hvalue, Nat.not_lt.2 hle]
  rw [number, numeral_writeCount n hrest]
  simp only [hrange, if_true, hcount]

/-! ### Values in objects -/

/-- A text that goes on after a value of an object, or ends there. -/
inductive EndsValue : Text → Prop
  | nil : EndsValue []
  | comma (rest : Text) : EndsValue (',' :: rest)
  | bracket (rest : Text) : EndsValue ('\x7d' :: rest)

lemma EndsValue.endsNumber (h : EndsValue rest) : EndsNumber rest := by
  cases h with
  | nil => rintro c t ⟨⟩
  | comma rest =>
      rintro c t ⟨⟩
      decide
  | bracket rest =>
      rintro c t ⟨⟩
      decide

/-- A reader that takes back what is written for a value, wherever the value may stand, and gives
what `view` makes of it. -/
def ReadsBack (read : Reader β) (write : α → Text) (view : α → β) : Prop :=
  ∀ a rest, EndsValue rest → read (write a ++ rest) = .ok (view a, rest)

lemma skipBlank_cons (hc : isBlank c = false) (s : Text) : skipBlank (c :: s) = c :: s := by
  rw [skipBlank, List.dropWhile_cons_of_neg (by simp [hc])]

/-- A count is read back as one. -/
lemma readsBack_count : ReadsBack count writeCount UInt64.toNat := by
  intro n rest hrest
  have hnumber := number_writeCount n hrest.endsNumber
  obtain ⟨c, t, hcount, hdigit⟩ := exists_writeCount_eq_cons n
  have hblank : isBlank c = false := by
    rw [Bool.eq_false_iff, Ne, isBlank]
    simp only [Bool.or_eq_true, beq_iff_eq]
    rintro (((rfl | rfl) | rfl) | rfl) <;> cases hdigit
  rw [hcount, List.cons_append] at hnumber
  rw [count, hcount, List.cons_append, skipBlank_cons hblank]
  simp [hdigit, hnumber]

/-! ### Objects -/

/-- Read the entries of an object in the order of the text, at most `steps` of them. -/
def pairsWithin (read : Reader β) (first : Bool) : (steps : ℕ) → Reader (List (String × β))
  | 0, _ => .error .truncated
  | steps + 1, s =>
    match nextKey first s with
    | .error e => .error e
    | .ok (none, s) => .ok ([], s)
    | .ok (some key, s) =>
      match valueOf read s with
      | .error e => .error e
      | .ok (b, s) => (pairsWithin read false steps s).map fun r => ((key, b) :: r.1, r.2)

/-- Read an object as the list of its entries, in the order of the text. -/
def pairs (read : Reader β) : Reader (List (String × β)) := fun s =>
  match skipBlank s with
  | '\x7b' :: s => pairsWithin read true (s.length + 1) s
  | s => .error (wrongShape s)

lemma pairs_bracket (read : Reader β) (s : Text) :
    pairs read ('\x7b' :: s) = pairsWithin read true (s.length + 1) s :=
  rfl

/-- The entries that are read into a dictionary are those of the object, in their order. -/
lemma entriesOnto_eq (read : Reader α) (first : Bool) (d : Dict α) (steps : ℕ) (s : Text) :
    entriesOnto read first d steps s = (pairsWithin read first steps s).map fun r =>
      (r.1.foldl (fun d e => d.insert e.1 e.2) d, r.2) := by
  induction steps generalizing first d s with
  | zero => rfl
  | succ steps ih =>
      rw [entriesOnto, pairsWithin]
      rcases nextKey first s with e | ⟨_ | key, s⟩
      · rfl
      · rfl
      · dsimp only
        rcases valueOf read s with e | ⟨a, s⟩
        · rfl
        · dsimp only
          rw [ih]
          cases pairsWithin read false steps s <;> rfl

/-- **An object that is read into a dictionary is the dictionary of its entries.** -/
lemma dict_eq (read : Reader α) (s : Text) :
    dict read s = (pairs read s).map fun r => (Dict.ofList r.1, r.2) := by
  rw [dict, pairs]
  cases hs : skipBlank s with
  | nil => rfl
  | cons c t =>
      by_cases hc : c = '\x7b'
      · subst hc
        exact entriesOnto_eq read true .empty _ t
      · simp [hc, Except.map]

section Entries

variable {read : Reader β} {write : α → Text} {view : α → β}

lemma nextKey_first (key : String) (rest : Text) :
    nextKey true (quoted key ++ rest) = .ok (some key, rest) := by
  have hbody := stringBody_escaped key rest
  rw [quoted, List.cons_append, List.append_assoc, List.singleton_append, nextKey,
    skipBlank_cons (by decide)]
  simp [nextKey.key, hbody, Except.map]

lemma nextKey_comma (key : String) (rest : Text) :
    nextKey false (',' :: (quoted key ++ rest)) = .ok (some key, rest) := by
  have hbody := stringBody_escaped key rest
  rw [quoted, List.cons_append, List.append_assoc, List.singleton_append, nextKey,
    skipBlank_cons (by decide)]
  simp [nextKey.key, skipBlank_cons (c := '"') (by decide), hbody, Except.map]

lemma valueOf_colon (h : ReadsBack read write view) (a : α) (hrest : EndsValue rest) :
    valueOf read (':' :: (write a ++ rest)) = .ok (view a, rest) :=
  h a rest hrest

/-- An entry as it is written. -/
def writeEntry (write : α → Text) (e : String × α) : Text :=
  quoted e.1 ++ (':' :: write e.2)

lemma joined_cons (x : Text) (l : List Text) :
    joined [','] (x :: l) = x ++ l.flatMap (',' :: ·) := by
  induction l generalizing x with
  | nil => simp [joined]
  | cons y l ih =>
      have hjoined : joined [','] (x :: y :: l) = x ++ ([','] ++ joined [','] (y :: l)) := rfl
      rw [hjoined, ih, List.flatMap_cons]
      rfl

lemma endsValue_flatMap (l : List Text) (rest : Text) :
    EndsValue (l.flatMap (',' :: ·) ++ '\x7d' :: rest) := by
  cases l with
  | nil => exact .bracket rest
  | cons x l => exact .comma _

/-- The entries after the first are read back. -/
lemma pairsWithin_flatMap (h : ReadsBack read write view) (es : List (String × α))
    (hsteps : es.length < steps) (rest : Text) :
    pairsWithin read false steps
        ((es.map (writeEntry write)).flatMap (',' :: ·) ++ '\x7d' :: rest) =
      .ok (es.map fun e => (e.1, view e.2), rest) := by
  induction es generalizing steps with
  | nil =>
      obtain ⟨steps, rfl⟩ := Nat.exists_eq_add_of_lt hsteps
      rfl
  | cons e es ih =>
      obtain ⟨steps, rfl⟩ : ∃ k, steps = k + 1 := ⟨steps - 1, by omega⟩
      have hvalue := valueOf_colon h e.2 (endsValue_flatMap (es.map (writeEntry write)) rest)
      have htext : ((e :: es).map (writeEntry write)).flatMap (',' :: ·) ++ '\x7d' :: rest =
          ',' :: (quoted e.1 ++ (':' :: (write e.2 ++
            ((es.map (writeEntry write)).flatMap (',' :: ·) ++ '\x7d' :: rest)))) := by
        simp [writeEntry]
      rw [htext, pairsWithin, nextKey_comma]
      dsimp only
      rw [hvalue]
      dsimp only
      rw [ih (by simpa using hsteps)]
      rfl

lemma length_le_flatMap (l : List Text) : l.length ≤ (l.flatMap (',' :: ·)).length := by
  induction l with
  | nil => simp
  | cons x l ih =>
      simp only [List.flatMap_cons, List.length_append, List.length_cons]
      omega

/-- All entries are read back. -/
lemma pairsWithin_joined (h : ReadsBack read write view) (es : List (String × α))
    (hsteps : es.length < steps) (rest : Text) :
    pairsWithin read true steps (joined [','] (es.map (writeEntry write)) ++ '\x7d' :: rest) =
      .ok (es.map fun e => (e.1, view e.2), rest) := by
  obtain ⟨steps, rfl⟩ : ∃ k, steps = k + 1 := ⟨steps - 1, by omega⟩
  cases es with
  | nil => rfl
  | cons e es =>
      have hvalue := valueOf_colon h e.2 (endsValue_flatMap (es.map (writeEntry write)) rest)
      have htext : joined [','] ((e :: es).map (writeEntry write)) ++ '\x7d' :: rest =
          quoted e.1 ++ (':' :: (write e.2 ++
            ((es.map (writeEntry write)).flatMap (',' :: ·) ++ '\x7d' :: rest))) := by
        rw [List.map_cons, joined_cons]
        simp [writeEntry]
      rw [htext, pairsWithin, nextKey_first]
      dsimp only
      rw [hvalue]
      dsimp only
      rw [pairsWithin_flatMap h es (by simpa using hsteps)]
      rfl

/-- There are no more entries than characters. -/
lemma length_le_joined (write : α → Text) (es : List (String × α)) :
    es.length ≤ (joined [','] (es.map (writeEntry write))).length := by
  cases es with
  | nil => simp
  | cons e es =>
      have hlength := length_le_flatMap (es.map (writeEntry write))
      rw [List.length_map] at hlength
      rw [List.map_cons, joined_cons, List.length_append, List.length_cons, writeEntry, quoted,
        List.cons_append, List.length_cons]
      omega

/-- **An object is read back, entry by entry in the order in which it is written.** -/
lemma readsBack_pairs (h : ReadsBack read write view) :
    ReadsBack (pairs read) (compact write) fun d => d.entries.map fun e => (e.1, view e.2) := by
  intro d rest hrest
  have hcompact : compact write d ++ rest =
      '\x7b' :: (joined [','] (d.entries.map (writeEntry write)) ++ '\x7d' :: rest) := by
    simp only [compact, List.cons_append, List.append_assoc]
    rfl
  have hlength := length_le_joined write d.entries
  rw [hcompact, pairs_bracket]
  refine pairsWithin_joined h d.entries ?_ rest
  rw [List.length_append]
  omega

end Entries

/-- **A dictionary is read back.** -/
lemma readsBack_dict {read : Reader α} {write : α → Text} (h : ReadsBack read write id) :
    ReadsBack (dict read) (compact write) id := by
  intro d rest hrest
  rw [dict_eq, readsBack_pairs h d rest hrest]
  simp only [Except.map, id, List.map_id', Dict.ofList_entries]

/-- A whole text is read back. -/
lemma parse_of_readsBack {read : Reader β} {write : α → Text} {view : α → β}
    (h : ReadsBack read write view) (a : α) : parse read (write a) = .ok (view a) := by
  have hread := h a [] .nil
  rw [List.append_nil] at hread
  rw [parse, hread]
  rfl

end CallCensus.Json
