import CallCensus.Pattern.Notation
import CallCensus.Proofs.Pattern.Ends

/-!
Reading what was written with backslashes.

A text in which every sign has a backslash is read as the letters that it had before, one after
the other, whatever is written after it. So a bar after it parts the whole of it from what follows.

* `tokens?_escape_append`: its tokens;
* `readFrom?_letters`: letters, read from any level;
* `read?_escape`, `read?_escape_bar`: its pattern, alone and as the first of two alternatives.
-/

namespace CallCensus.Pattern

variable {letter : Char → Pattern} {c : Char}

/-! ### Tokens -/

lemma token?_of_not_mem (h : c ∉ signs) : token? c = some (.letter c) := by
  rw [token?]
  all_goals
    rintro rfl
    exact h (by decide)

lemma tokens?_of_not_mem (h : c ∉ signs) (rest : Text) :
    tokens? (c :: rest) = (tokens? rest).map (.letter c :: ·) := by
  rw [tokens?, token?_of_not_mem h]
  rintro _ _ rfl
  exact absurd (by decide) h

lemma tokens?_of_mem (h : c ∈ signs) (rest : Text) :
    tokens? ('\\' :: c :: rest) = (tokens? rest).map (.letter c :: ·) := by
  rw [tokens?, if_pos (List.contains_iff_mem.2 h)]

/-- A text that is written with backslashes has its own letters as tokens. -/
lemma tokens?_escape_append (s rest : Text) :
    tokens? (escape s ++ rest) = (tokens? rest).map (s.map .letter ++ ·) := by
  induction s with
  | nil => simp [escape]
  | cons c s ih =>
      have hcons : escape (c :: s) ++ rest =
          (if signs.contains c then ['\\', c] else [c]) ++ (escape s ++ rest) := by
        rw [escape, List.flatMap_cons, List.append_assoc, ← escape]
      have hmap : ∀ tokens : Option (List Token),
          (tokens.map (s.map .letter ++ ·)).map (.letter c :: ·) =
            tokens.map ((c :: s).map .letter ++ ·) := by
        rintro (_ | _) <;> rfl
      rw [hcons]
      by_cases hc : c ∈ signs
      · rw [if_pos (List.contains_iff_mem.2 hc), List.cons_append, List.singleton_append,
          tokens?_of_mem hc, ih, hmap]
      · rw [if_neg (mt List.contains_iff_mem.1 hc), List.singleton_append,
          tokens?_of_not_mem hc, ih, hmap]

lemma tokens?_escape (s : Text) : tokens? (escape s) = some (s.map .letter) := by
  rw [← List.append_nil (escape s), tokens?_escape_append, tokens?, Option.map_some,
    List.append_nil]

/-! ### Patterns -/

lemma readFrom?_letters (s : Text) (l : Level) (outer : List Level) (rest : List Token) :
    readFrom? letter l outer (s.map .letter ++ rest) =
      readFrom? letter (s.foldl (fun l c => l.add (letter c)) l) outer rest := by
  induction s generalizing l with
  | nil => rfl
  | cons c s ih => rw [List.map_cons, List.cons_append, readFrom?, ih, List.foldl_cons]

/-- The parts that letters are, and no alternatives. -/
lemma foldl_add (letter : Char → Pattern) (s : Text) (l : Level) :
    (s.foldl (fun l c => l.add (letter c)) l).before = l.before ∧
      (s.foldl (fun l c => l.add (letter c)) l).parts = (s.map letter).reverse ++ l.parts := by
  induction s generalizing l with
  | nil => exact ⟨rfl, rfl⟩
  | cons c s ih =>
      obtain ⟨hbefore, hparts⟩ := ih (l.add (letter c))
      refine ⟨hbefore, ?_⟩
      rw [List.foldl_cons, hparts, List.map_cons, List.reverse_cons, List.append_assoc]
      rfl

lemma readFrom?_letters_end (s : Text) (before : List Pattern) :
    readFrom? letter ⟨before, [], false⟩ [] (s.map .letter) =
      some (before.foldl (fun q p => alt p q) (sequence (s.map letter))) := by
  obtain ⟨hbefore, hparts⟩ := foldl_add letter s ⟨before, [], false⟩
  rw [← List.append_nil (s.map Token.letter), readFrom?_letters, readFrom?, Level.pattern, hbefore,
    hparts, List.append_nil, List.reverse_reverse]

/-- A text that is written with backslashes is read as it is. -/
lemma read?_escape (s : Text) : read? letter (escape s) = some (sequence (s.map letter)) := by
  rw [read?, tokens?_escape]
  exact readFrom?_letters_end s []

/-- A bar after such a text parts the whole of it from what is written behind the bar. -/
lemma read?_escape_bar (s t : Text) :
    read? letter (escape s ++ '|' :: escape t) =
      some (alt (sequence (s.map letter)) (sequence (t.map letter))) := by
  have htokens : tokens? (escape s ++ '|' :: escape t) =
      some (s.map .letter ++ .bar :: t.map .letter) := by
    rw [tokens?_escape_append, tokens?, tokens?_escape]
    · rfl
    · exact nofun
  obtain ⟨hbefore, hparts⟩ := foldl_add letter s .start
  rw [read?, htokens]
  simp only [readFrom?_letters, readFrom?, Level.bar, hbefore, hparts]
  rw [readFrom?_letters_end]
  simp [Level.start]

end CallCensus.Pattern
