import CallCensus.Proofs.Loop
import CallCensus.Proofs.Text.Utf8
import CallCensus.Text.Offsets

/-!
Reading a text at offsets in its bytes.

Everything is said about offsets at which some last part of the text starts. There the next byte
is that of the next character, if this is an ASCII character, and no ASCII byte otherwise; the
bytes inside a character are no ASCII bytes either. So a test of a byte for an ASCII character is a
test of a character, and a reading that goes from byte to byte passes over a character as a whole.

* `StartsAt`: the last part of a text that starts at an offset;
* `StartsAt.exists_byte`, `StartsAt.loop_next`: what a reading by bytes sees of a character;
* `slice?_eq_some_iff`: where a text can be cut;
* `First`, `find?_eq_none`, `exists_first`: what is found in a text is the first occurrence.
-/

namespace CallCensus.Text

open Utf8

variable {s u v w : Text} {c q : Char} {i j : ℕ} {b : UInt8}

/-! ### The bytes of a text -/

lemma getElem?_toUTF8 (s : Text) (i : ℕ) :
    (String.ofList s).toUTF8[i]? = (s.flatMap String.utf8EncodeChar)[i]? := by
  rw [String.toUTF8_eq_toByteArray, String.toByteArray_ofList, List.utf8Encode]
  by_cases h : i < (s.flatMap String.utf8EncodeChar).length
  · rw [List.getElem?_eq_getElem h, getElem?_pos _ i (by rwa [List.size_toByteArray]),
      List.getElem_toByteArray]
  · rw [List.getElem?_eq_none (Nat.le_of_not_lt h),
      getElem?_neg _ i (by rwa [List.size_toByteArray])]

lemma utf8ByteSize_ofList (s : Text) : (String.ofList s).utf8ByteSize = utf8Length s := by
  rw [← String.size_toByteArray, String.toByteArray_ofList, List.utf8Encode,
    List.size_toByteArray, utf8Length_eq]

lemma size_toUTF8 (s : Text) : (String.ofList s).toUTF8.size = utf8Length s := by
  rw [String.toUTF8_eq_toByteArray, String.size_toByteArray, utf8ByteSize_ofList]

lemma rawEndPos_ofList (s : Text) : (String.ofList s).rawEndPos = ⟨utf8Length s⟩ :=
  String.Pos.Raw.ext (utf8ByteSize_ofList s)

lemma lt_of_getElem?_toUTF8 (h : (String.ofList s).toUTF8[i]? = some b) : i < utf8Length s := by
  rw [getElem?_toUTF8] at h
  rw [utf8Length_eq]
  exact (List.getElem?_eq_some_iff.1 h).1

lemma toNat_toUInt8 (h : q.toNat < 0x80) : q.toUInt8.toNat = q.toNat := by
  show q.toNat % 256 = q.toNat
  exact Nat.mod_eq_of_lt (by omega)

/-- An ASCII character is one byte. -/
lemma utf8EncodeChar_of_lt (h : c.toNat < 0x80) : String.utf8EncodeChar c = [c.toUInt8] := by
  generalize hbytes : String.utf8EncodeChar c = bytes
  have hencodes := encodes_utf8EncodeChar c
  rw [hbytes] at hencodes
  cases hencodes with
  | @one a hv ha => rw [UInt8.toNat_inj.1 (ha.trans (toNat_toUInt8 h).symm)]
  | two hv => omega
  | three hv => omega
  | four hv => omega

lemma utf8Size_of_lt (h : c.toNat < 0x80) : c.utf8Size = 1 := by
  rw [← String.length_utf8EncodeChar, utf8EncodeChar_of_lt h, List.length_singleton]

/-- The bytes of any other character are no ASCII bytes. -/
lemma le_of_mem_utf8EncodeChar (h : 0x80 ≤ c.toNat) (hb : b ∈ String.utf8EncodeChar c) :
    0x80 ≤ b.toNat := by
  generalize hbytes : String.utf8EncodeChar c = bytes at hb
  have hencodes := encodes_utf8EncodeChar c
  rw [hbytes] at hencodes
  cases hencodes with
  | one hv => omega
  | two hv h₁ h₂ =>
      simp only [List.mem_cons, List.not_mem_nil, or_false] at hb
      rcases hb with rfl | rfl <;> omega
  | three hv h₁ h₂ h₃ =>
      simp only [List.mem_cons, List.not_mem_nil, or_false] at hb
      rcases hb with rfl | rfl | rfl <;> omega
  | four hv h₁ h₂ h₃ h₄ =>
      simp only [List.mem_cons, List.not_mem_nil, or_false] at hb
      rcases hb with rfl | rfl | rfl | rfl <;> omega

lemma ne_toUInt8 (hq : q.toNat < 0x80) (hb : 0x80 ≤ b.toNat) : b ≠ q.toUInt8 := by
  rintro rfl
  rw [toNat_toUInt8 hq] at hb
  omega

/-! ### The last part of a text -/

/-- A text has `v` from the offset `i` on. -/
def StartsAt (s : Text) (i : ℕ) (v : Text) : Prop :=
  ∃ u, s = u ++ v ∧ i = utf8Length u

/-- The offset behind the first `n` characters of a text that starts at the offset `i`. -/
def behind (i : ℕ) (v : Text) (n : ℕ) : ℕ :=
  i + utf8Length (v.take n)

lemma behind_zero (i : ℕ) (v : Text) : behind i v 0 = i :=
  rfl

lemma behind_succ (i : ℕ) (c : Char) (v : Text) (n : ℕ) :
    behind i (c :: v) (n + 1) = behind (i + c.utf8Size) v n := by
  rw [behind, behind, List.take_succ_cons, utf8Length_cons, Nat.add_assoc]

lemma startsAt_zero (s : Text) : StartsAt s 0 s :=
  ⟨[], rfl, rfl⟩

namespace StartsAt

lemma append (h : StartsAt s i (u ++ v)) : StartsAt s (i + utf8Length u) v := by
  obtain ⟨before, rfl, rfl⟩ := h
  exact ⟨before ++ u, (List.append_assoc ..).symm, (utf8Length_append before u).symm⟩

lemma tail (h : StartsAt s i (c :: v)) : StartsAt s (i + c.utf8Size) v :=
  utf8Length_singleton c ▸ append (u := [c]) h

lemma drop (h : StartsAt s i v) (n : ℕ) : StartsAt s (behind i v n) (v.drop n) :=
  append (u := v.take n) (by rwa [List.take_append_drop])

lemma add_utf8Length (h : StartsAt s i v) : i + utf8Length v = utf8Length s := by
  obtain ⟨before, rfl, rfl⟩ := h
  exact (utf8Length_append before v).symm

lemma lt (h : StartsAt s i (c :: v)) : i < utf8Length s := by
  have hpos := one_le_utf8Length (List.cons_ne_nil c v)
  rw [← h.add_utf8Length]
  omega

lemma getElem? (h : StartsAt s i v) (k : ℕ) :
    (String.ofList s).toUTF8[i + k]? = (v.flatMap String.utf8EncodeChar)[k]? := by
  obtain ⟨before, rfl, rfl⟩ := h
  rw [getElem?_toUTF8, List.flatMap_append, utf8Length_eq,
    List.getElem?_append_right (Nat.le_add_right _ _), Nat.add_sub_cancel_left]

lemma getElem?_nil (h : StartsAt s i []) : (String.ofList s).toUTF8[i]? = none :=
  h.getElem? 0

lemma getElem?_cons (h : StartsAt s i (c :: v)) {k : ℕ} (hk : k < c.utf8Size) :
    ∃ b ∈ String.utf8EncodeChar c, (String.ofList s).toUTF8[i + k]? = some b := by
  rw [← String.length_utf8EncodeChar c] at hk
  refine ⟨_, List.getElem_mem hk, ?_⟩
  rw [h.getElem?, List.flatMap_cons, List.getElem?_append_left hk, List.getElem?_eq_getElem hk]

/-- A test of the next byte for an ASCII character is a test of the next character. -/
lemma exists_byte (h : StartsAt s i (c :: v)) : ∃ b, (String.ofList s).toUTF8[i]? = some b ∧
    ∀ q : Char, q.toNat < 0x80 → (b = q.toUInt8 ↔ c = q) := by
  obtain ⟨b, hmem, hb⟩ := h.getElem?_cons c.utf8Size_pos
  refine ⟨b, hb, fun q hq => ?_⟩
  by_cases hc : c.toNat < 0x80
  · rw [utf8EncodeChar_of_lt hc, List.mem_singleton] at hmem
    rw [hmem, ← UInt8.toNat_inj, toNat_toUInt8 hc, toNat_toUInt8 hq, Char.toNat_inj]
  · refine iff_of_false (ne_toUInt8 hq (le_of_mem_utf8EncodeChar (Nat.le_of_not_lt hc) hmem)) ?_
    rintro rfl
    exact hc hq

lemma getElem?_eq_none_iff (h : StartsAt s i v) : (String.ofList s).toUTF8[i]? = none ↔ v = [] := by
  cases v with
  | nil => exact iff_of_true h.getElem?_nil rfl
  | cons c v =>
      obtain ⟨b, hb, -⟩ := h.exists_byte
      rw [hb]
      exact iff_of_false (fun h => nomatch h) (fun h => nomatch h)

/-- The next byte is that of an ASCII character where the character comes next. -/
lemma getElem?_eq_some_iff (h : StartsAt s i v) (hq : q.toNat < 0x80) :
    (String.ofList s).toUTF8[i]? = some q.toUInt8 ↔ v.head? = some q := by
  cases v with
  | nil =>
      rw [h.getElem?_nil]
      exact iff_of_false (fun h => nomatch h) (fun h => nomatch h)
  | cons c v =>
      obtain ⟨b, hb, htest⟩ := h.exists_byte
      rw [hb, List.head?_cons, Option.some_inj, Option.some_inj, htest q hq]

lemma getElem?_head (h : StartsAt s i (q :: v)) (hq : q.toNat < 0x80) :
    (String.ofList s).toUTF8[i]? = some q.toUInt8 :=
  (h.getElem?_eq_some_iff hq).2 rfl

lemma exists_cons (h : StartsAt s i v) (hq : q.toNat < 0x80)
    (hb : (String.ofList s).toUTF8[i]? = some q.toUInt8) : ∃ tail, v = q :: tail :=
  List.head?_eq_some_iff.1 ((h.getElem?_eq_some_iff hq).1 hb)

/-- A reading by bytes that only goes on inside characters comes from the second byte of a
character to what is after it. -/
lemma loop_next {σ ρ : Type} {round : σ → Round σ ρ} {cursor : σ → ℕ} {bound : ℕ}
    (h : StartsAt s i (c :: v)) (hadvances : Advances round cursor bound) (place : ℕ → σ)
    (hinside : ∀ i b, (String.ofList s).toUTF8[i]? = some b → 0x80 ≤ b.toNat →
      round (place i) = .goOn (place (i + 1))) :
    loop round (place (i + 1)) = loop round (place (i + c.utf8Size)) := by
  by_cases hc : c.toNat < 0x80
  · rw [utf8Size_of_lt hc]
  have hskip := hadvances.loop_skip place (n := c.utf8Size - 1) (i + 1) fun k hk => by
    obtain ⟨b, hmem, hb⟩ := h.getElem?_cons (k := 1 + k) (by omega)
    rw [← Nat.add_assoc] at hb
    exact hinside _ b hb (le_of_mem_utf8EncodeChar (Nat.le_of_not_lt hc) hmem)
  rw [hskip, Nat.add_assoc, Nat.add_sub_cancel' c.utf8Size_pos]

end StartsAt

/-! ### Cutting -/

/-- A character ends, or the text starts, at the offsets at which some last part starts. -/
lemma isValid_iff : (⟨i⟩ : String.Pos.Raw).IsValid (String.ofList s) ↔ ∃ v, StartsAt s i v := by
  rw [String.Pos.Raw.isValid_ofList]
  constructor
  · rintro ⟨n, hn⟩
    refine ⟨s.drop n, s.take n, (List.take_append_drop n s).symm, ?_⟩
    rw [← utf8ByteSize_ofList]
    exact hn
  · rintro ⟨v, u, rfl, rfl⟩
    exact ⟨u.length, by rw [List.take_left, utf8ByteSize_ofList]⟩

/-- The part of a text between two offsets. -/
lemma slice?_eq_some (h : StartsAt s i (v ++ w)) :
    slice? (String.ofList s) i (i + utf8Length v) = some (String.ofList v) := by
  have hvalid : i ≤ i + utf8Length v ∧ (⟨i⟩ : String.Pos.Raw).IsValid (String.ofList s) ∧
      (⟨i + utf8Length v⟩ : String.Pos.Raw).IsValid (String.ofList s) :=
    ⟨Nat.le_add_right _ _, isValid_iff.2 ⟨_, h⟩, isValid_iff.2 ⟨_, h.append⟩⟩
  rw [slice?, dif_pos hvalid, Option.some_inj]
  obtain ⟨u, rfl, rfl⟩ := h
  have hfirst : (⟨⟨utf8Length u⟩, hvalid.2.1⟩ : (String.ofList (u ++ (v ++ w))).Pos).Splits
      (String.ofList u) (String.ofList v ++ String.ofList w) :=
    ⟨by rw [← String.ofList_append, ← String.ofList_append], (rawEndPos_ofList u).symm⟩
  have hlast : (⟨⟨utf8Length u + utf8Length v⟩, hvalid.2.2⟩ :
      (String.ofList (u ++ (v ++ w))).Pos).Splits (String.ofList u ++ String.ofList v)
        (String.ofList w) :=
    ⟨by rw [← String.ofList_append, ← String.ofList_append, List.append_assoc],
      by rw [← String.ofList_append, rawEndPos_ofList, utf8Length_append]⟩
  obtain ⟨_, hslice⟩ := String.copy_slice_eq_iff_splits.2 ⟨_, _, hfirst, hlast⟩
  exact hslice

/-- **A text can be cut where characters end**, and nowhere else. -/
lemma slice?_eq_some_iff {part : String} : slice? (String.ofList s) i j = some part ↔
    ∃ u v w, s = u ++ (v ++ w) ∧ i = utf8Length u ∧ j = utf8Length (u ++ v) ∧
      part = String.ofList v := by
  constructor
  · intro h
    rw [slice?] at h
    split_ifs at h with hvalid
    rw [Option.some_inj] at h
    obtain ⟨u, w, hfirst, hlast⟩ := String.copy_slice_eq_iff_splits.1 ⟨hvalid.1, h⟩
    have hs := congrArg String.toList hfirst.eq_append
    rw [String.toList_ofList, String.toList_append, String.toList_append] at hs
    have hi := congrArg String.Pos.Raw.byteIdx hfirst.offset_eq_rawEndPos
    have hj := congrArg String.Pos.Raw.byteIdx hlast.offset_eq_rawEndPos
    refine ⟨_, _, _, hs, hi.trans ?_, hj.trans ?_, String.ofList_toList.symm⟩
    · rw [← utf8ByteSize_ofList, String.ofList_toList]
      rfl
    · rw [← utf8ByteSize_ofList, String.ofList_append, String.ofList_toList, String.ofList_toList]
      rfl
  · rintro ⟨u, v, w, hs, rfl, rfl, rfl⟩
    rw [utf8Length_append]
    exact slice?_eq_some ⟨u, hs, rfl⟩

lemma slice?_last (h : StartsAt s i v) :
    slice? (String.ofList s) i (String.ofList s).utf8ByteSize = some (String.ofList v) := by
  rw [utf8ByteSize_ofList, ← h.add_utf8Length]
  exact slice?_eq_some (w := []) (by rwa [List.append_nil])

/-! ### The first occurrence -/

/-- The text before the first occurrence of `p` in a text. -/
inductive First (p : Text) : Text → Text → Prop
  | here (v : Text) : First p [] (p ++ v)
  | later {c : Char} {u v : Text} (hnot : ¬p <+: c :: v) (h : First p u v) :
      First p (c :: u) (c :: v)

lemma First.exists_append {p : Text} (h : First p u v) : ∃ w, v = u ++ p ++ w := by
  induction h with
  | here v => exact ⟨v, rfl⟩
  | later _ _ ih =>
      obtain ⟨w, rfl⟩ := ih
      exact ⟨w, rfl⟩

/-- An occurrence that has no earlier one before it is the first. -/
lemma first_of_forall {p : Text} (h : v = u ++ p ++ w)
    (hleast : ∀ u' w', v = u' ++ p ++ w' → utf8Length u ≤ utf8Length u') : First p u v := by
  induction u generalizing v with
  | nil => exact h ▸ .here w
  | cons c u ih =>
      subst h
      refine .later ?_ (ih rfl fun u' w' hu' => ?_)
      · rintro ⟨w', hw'⟩
        have hle := hleast [] w' hw'.symm
        rw [utf8Length_cons] at hle
        have hpos := c.utf8Size_pos
        exact absurd hle (by simp [utf8Length]; omega)
      · have hle := hleast (c :: u') w' (congrArg (c :: ·) hu')
        rw [utf8Length_cons, utf8Length_cons] at hle
        omega

lemma find?_eq_none {p : Text} :
    (String.ofList v).find? (String.ofList p) = none ↔ ¬p <:+: v := by
  rw [String.find?_eq_find?_toSlice, Option.map_eq_none_iff, String.Slice.find?_eq_none_iff,
    String.Slice.contains_string_eq_false_iff, String.copy_toSlice, String.toList_ofList,
    String.toList_ofList]

/-- What is found is the first occurrence. -/
lemma exists_first {p : Text} (hp : p ≠ []) {pos : (String.ofList v).Pos}
    (h : (String.ofList v).find? (String.ofList p) = some pos) :
    ∃ u, First p u v ∧ pos.offset.byteIdx = utf8Length u := by
  have hne : String.ofList p ≠ "" := fun hempty => hp (by simpa using congrArg String.toList hempty)
  have := String.Slice.Pattern.Model.ForwardStringSearcher.strictPatternModel hne
  have := String.Slice.Pattern.Model.ForwardStringSearcher.lawfulToForwardSearcherModel hne
  rw [String.find?_eq_find?_toSlice, Option.map_eq_some_iff] at h
  obtain ⟨pos, h, rfl⟩ := h
  simp only [String.Slice.Pattern.Model.find?_eq_some_iff,
    String.Slice.Pattern.Model.ForwardStringSearcher.matchesAt_iff_splits] at h
  obtain ⟨⟨before, after, hsplits⟩, hleast⟩ := h
  have hoffset : pos.offset.byteIdx = utf8Length before.toList := by
    rw [hsplits.offset_eq_rawEndPos, ← utf8ByteSize_ofList, String.ofList_toList]
    rfl
  have hv : v = before.toList ++ p ++ after.toList := by
    have happend := congrArg String.toList hsplits.eq_append
    rwa [String.copy_toSlice, String.toList_ofList, String.toList_append, String.toList_append,
      String.toList_ofList, ← List.append_assoc] at happend
  refine ⟨_, first_of_forall hv fun u w hu => ?_, hoffset⟩
  by_contra hlt
  have happend : (String.ofList v).toSlice.copy =
      String.ofList u ++ (String.ofList p ++ String.ofList w) := by
    rw [String.copy_toSlice, hu, String.ofList_append, String.ofList_append, String.append_assoc]
  have hearlier := String.Slice.Pos.splits_ofEqAppend happend
  refine hleast _ ?_ ⟨_, _, hearlier⟩
  rw [String.Slice.Pos.lt_iff, String.Pos.Raw.lt_iff, hearlier.offset_eq_rawEndPos,
    rawEndPos_ofList, hoffset]
  exact Nat.lt_of_not_le hlt

end CallCensus.Text
