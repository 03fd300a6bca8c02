import CallCensus.Evidence
import CallCensus.Proofs.Pattern.Notation

/-!
What counts as evidence of a distribution.

The evidence is written as a pattern: the name with backslashes before its signs, and for one name
a bar and another name behind it. It matches a text that holds one of the names, letter case aside.
Since no letter but `s` and `k` has a fellow outside of ASCII that folds to it, the one name is the
same with and without the folding of other letters.

* `Unicode.fold_eq_iff`: the letters that fold to the ASCII letters of a name;
* `SameFolded`, `OccursFolded`: texts that differ in letter case only, and parts of a text;
* `holdsName_iff`, `exists_pattern?`: the patterns of a name, and of a distribution;
* `mentions_exactly`: what it matches.
-/

namespace CallCensus

/-! ### Letter case -/

namespace Unicode

/-- Of the characters outside of ASCII that are folded, only two are folded to one of ASCII. -/
lemma image_of_mem_foldingRuns : ∀ r ∈ foldingRuns.runs, r.last < 0x80 ∨ 0x80 ≤ r.first + r.shift ∨
    r.first = r.last ∧ (r.first + r.shift = 's'.toNat ∨ r.first + r.shift = 'k'.toNat) := by
  decide +kernel

lemma toNat_ofNat (n : ℕ) : (Char.ofNat n).toNat = n ∨ (Char.ofNat n).toNat = 0 := by
  by_cases h : n.isValidChar
  · exact .inl (congrArg Char.toNat (dif_pos h : Char.ofNat n = Char.ofNatAux n h))
  · exact .inr (congrArg Char.toNat (dif_neg h))

/-- No character outside of ASCII is folded to one of ASCII other than `s` and `k`. -/
lemma apply_foldingRuns_ne {c l : Char} (hc : 0x80 ≤ c.toNat) (hl : l.toNat < 0x80)
    (hpos : 0 < l.toNat) (hs : l ≠ 's') (hk : l ≠ 'k') : foldingRuns.apply c ≠ l := by
  have hne : c ≠ l := fun h => by subst h; omega
  rw [CaseRuns.apply]
  split
  · exact hne
  · rename_i r hr
    have himage := image_of_mem_foldingRuns r (Array.mem_of_getElem? hr)
    rw [CaseRun.image?]
    split_ifs with hrun
    · rw [Option.map_some, Option.getD_some]
      rintro rfl
      rcases toNat_ofNat (c.toNat + r.shift).toNat with hnat | hnat
      · have hs' : (c.toNat + r.shift).toNat ≠ 's'.toNat :=
          fun h => hs (Char.toNat_inj.1 (hnat.trans h))
        have hk' : (c.toNat + r.shift).toNat ≠ 'k'.toNat :=
          fun h => hk (Char.toNat_inj.1 (hnat.trans h))
        omega
      · omega
    · exact hne

/-- A character that folds to one of ASCII, other than `s` and `k`, is one of ASCII. -/
lemma fold_eq_iff {c l : Char} (hl : l.toNat < 0x80) (hpos : 0 < l.toNat) (hs : l ≠ 's')
    (hk : l ≠ 'k') : fold c = l ↔ c.toLower = l := by
  rw [fold]
  split_ifs with hc
  · rfl
  · have hlower : c.toLower = c :=
      dif_neg fun hupper => hc (Nat.lt_of_le_of_lt hupper.2 (by decide))
    rw [hlower]
    refine iff_of_false (apply_foldingRuns_ne (Nat.le_of_not_lt hc) hl hpos hs hk) fun h => ?_
    exact hc (h ▸ hl)

end Unicode

namespace Evidence

/-- A text with the difference between letter cases removed. -/
def folded (s : Text) : Text :=
  s.map Unicode.fold

/-- Texts that differ in letter case only: character by character, with simple case folding. -/
def SameFolded : Text → Text → Prop :=
  List.Forall₂ fun c d => Unicode.fold c = Unicode.fold d

/-- A text has a contiguous part that differs from a given one in letter case only. -/
def OccursFolded (part s : Text) : Prop :=
  ∃ before middle after, s = before ++ middle ++ after ∧ SameFolded part middle

/-- A distribution whose name is `RxJava`, letter case in ASCII aside. -/
def IsRxJava (distribution : String) : Prop :=
  distribution.toList.map Char.toLower = "rxjava".toList

instance (distribution : String) : Decidable (IsRxJava distribution) :=
  inferInstanceAs (Decidable (_ = _))

variable {part part' s s' : Text} {distribution distribution' : String}

/-- Texts that differ in letter case only are folded to one text. -/
lemma sameFolded_iff : SameFolded s s' ↔ folded s = folded s' := by
  rw [folded, folded, ← List.forall₂_eq_eq_eq, List.forall₂_map_left_iff,
    List.forall₂_map_right_iff]
  rfl

/-- Letter case matters neither for a part nor for the text that has it. -/
lemma occursFolded_iff : OccursFolded part s ↔ folded part <:+: folded s := by
  constructor
  · rintro ⟨before, middle, after, rfl, hsame⟩
    refine ⟨folded before, folded after, ?_⟩
    rw [sameFolded_iff.1 hsame, folded, folded, folded, folded, List.map_append, List.map_append]
  · rintro ⟨before', after', hsplit⟩
    obtain ⟨front, after, rfl, hfront, -⟩ := List.map_eq_append_iff.1 hsplit.symm
    obtain ⟨before, middle, rfl, -, hmiddle⟩ := List.map_eq_append_iff.1 hfront
    exact ⟨before, middle, after, rfl, sameFolded_iff.2 hmiddle.symm⟩

/-- With other letters folded as well it is the same. -/
lemma isRxJava_iff : IsRxJava distribution ↔ folded distribution.toList = "rxjava".toList := by
  have hletters : ∀ l ∈ "rxjava".toList, l.toNat < 0x80 ∧ 0 < l.toNat ∧ l ≠ 's' ∧ l ≠ 'k' :=
    List.forall_iff_forall_mem.1 (by decide)
  rw [IsRxJava, folded]
  generalize "rxjava".toList = letters at hletters
  induction distribution.toList generalizing letters with
  | nil => rfl
  | cons c rest ih =>
      cases letters with
      | nil => exact iff_of_false (List.cons_ne_nil _ _) (List.cons_ne_nil _ _)
      | cons l letters =>
          obtain ⟨⟨hl, hpos, hs, hk⟩, hletters⟩ := List.forall_mem_cons.1 hletters
          rw [List.map_cons, List.map_cons, List.cons.injEq, List.cons.injEq]
          exact and_congr (Unicode.fold_eq_iff hl hpos hs hk).symm (ih letters hletters)

/-! ### The pattern -/

/-- Letters that are written one after the other match what differs from them in case only. -/
lemma occursIn_letters :
    (Pattern.sequence (part.map letterFolded)).occursIn s = true ↔ OccursFolded part s := by
  have hclasses : part.map letterFolded =
      (part.map fun c d => Unicode.fold d == Unicode.fold c).map .one := by
    rw [List.map_map]
    rfl
  have hsame : ∀ u : Text, List.Forall₂ (fun ok c => ok c = true)
      (part.map fun c d => Unicode.fold d == Unicode.fold c) u ↔ SameFolded part u := fun u => by
    rw [List.forall₂_map_left_iff, SameFolded]
    simp only [beq_iff_eq, @eq_comm Char]
  rw [hclasses, Pattern.occursIn_iff]
  simp only [Pattern.mem_ends_sequence_one, hsame]
  constructor
  · rintro ⟨before, v, rfl, _, middle, after, hsame, rfl, -⟩
    exact ⟨before, middle, after, (List.append_assoc _ _ _).symm, hsame⟩
  · rintro ⟨before, middle, after, rfl, hsame⟩
    exact ⟨before, middle ++ after, List.append_assoc _ _ _, _, middle, after, hsame, rfl, rfl⟩

/-- A text holds a name if it has a part that differs from the name in letter case only. -/
lemma holdsName_iff : holdsName distribution s = true ↔ OccursFolded distribution.toList s := by
  rw [holdsName, Pattern.read?_escape]
  exact occursIn_letters

/-- The evidence of a distribution can be read. It matches what holds its name, and what holds the
other name of `RxJava`. -/
lemma exists_pattern? (distribution : String) : ∃ p, pattern? distribution = some p ∧
    ∀ s, p.occursIn s = true ↔ OccursFolded distribution.toList s ∨
      IsRxJava distribution ∧ OccursFolded "reactivex".toList s := by
  rw [pattern?, written]
  split_ifs with h
  · have hother : "|reactivex".toList = '|' :: Pattern.escape "reactivex".toList := by decide
    rw [hother]
    refine ⟨_, Pattern.read?_escape_bar _ _, fun s => ?_⟩
    rw [Pattern.occursIn_alt, occursIn_letters, occursIn_letters, IsRxJava, and_iff_right h]
  · refine ⟨_, Pattern.read?_escape _, fun s => ?_⟩
    rw [occursIn_letters, or_iff_left fun hother => h hother.1]

/-- **Evidence of a distribution is its name, letter case aside.** Whatever the characters of its
name, a pattern can be read from what is written for it. A text mentions the distribution if and
only if it has a contiguous part that differs from the name in letter case only, character by
character, or, if the name is `RxJava`, from the other name under which code may import it. So it
makes no difference if letters of the name or of the text are replaced by others that differ from
them in case only, and a text that mentions it still does with more text around it. -/
theorem mentions_exactly (distribution : String) :
    (∃ p, pattern? distribution = some p) ∧
    (∀ s, mentions distribution s = true ↔ OccursFolded distribution.toList s ∨
      IsRxJava distribution ∧ OccursFolded "reactivex".toList s) ∧
    (∀ distribution' s s', SameFolded distribution.toList distribution'.toList → SameFolded s s' →
      mentions distribution' s' = mentions distribution s) ∧
    ∀ before s after, mentions distribution s = true →
      mentions distribution (before ++ s ++ after) = true := by
  have hmentions : ∀ distribution s, mentions distribution s = true ↔
      OccursFolded distribution.toList s ∨
        IsRxJava distribution ∧ OccursFolded "reactivex".toList s := by
    intro distribution s
    obtain ⟨p, hp, hoccurs⟩ := exists_pattern? distribution
    rw [mentions, hp]
    exact hoccurs s
  refine ⟨?pattern, hmentions distribution, fun distribution' s s' hname htext => ?folding,
    fun before s after h => ?around⟩
  case pattern =>
    obtain ⟨p, hp, -⟩ := exists_pattern? distribution
    exact ⟨p, hp⟩
  case folding =>
    rw [sameFolded_iff] at hname htext
    rw [Bool.eq_iff_iff, hmentions, hmentions, isRxJava_iff, isRxJava_iff]
    simp only [occursFolded_iff, hname, htext]
  case around =>
    have hinfix : folded s <:+: folded (before ++ s ++ after) :=
      ⟨folded before, folded after, by simp only [folded, List.map_append]⟩
    rw [hmentions] at h ⊢
    simp only [occursFolded_iff] at h ⊢
    exact h.imp (fun h => h.trans hinfix) fun h => ⟨h.1, h.2.trans hinfix⟩

/-- A full stop in a name stands for itself. -/
example : mentions "Rx.NET" "using rx.net;".toList = true ∧
    mentions "Rx.NET" "using RxANET;".toList = false := by
  decide +kernel

end Evidence

end CallCensus
