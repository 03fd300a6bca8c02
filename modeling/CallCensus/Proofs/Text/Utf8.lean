import CallCensus.Text.Utf8
import Mathlib.Tactic.Common

/-!
Texts as UTF-8.

A character is encoded in one to four bytes, which are read back as that character whatever
follows them. And of two characters the smaller one has the smaller bytes, at the first place where
they differ. So a text is read back from its bytes, and texts are ordered as their bytes are.

* `toList_toUTF8`: the bytes of a text, character by character;
* `utf8Length_eq`, `utf8Length_append`: how many they are;
* `Encodes`, `encodes_utf8EncodeChar`: the bytes of a character, by their number;
* `exists_decodeStep`: an encoded character is read back;
* `decode?_toUTF8`: a text is read back from its bytes;
* `toUTF8_lt`: texts are ordered as their bytes are.
-/

namespace CallCensus.Text.Utf8

/-! ### The bytes of a text -/

/-- The bytes of a sequence from a place on. -/
lemma toList_loop (bytes : ByteArray) (i : ℕ) (done : List UInt8) :
    ByteArray.toList.loop bytes i done = done.reverse ++ bytes.data.toList.drop i := by
  rw [ByteArray.toList.loop]
  split_ifs with hlt
  · have hget : bytes.get! i = bytes.data.toList.get ⟨i, hlt⟩ :=
        getElem!_pos bytes.data i hlt
    rw [toList_loop bytes (i + 1), List.drop_eq_getElem_cons hlt, hget]
    simp
  · have hle : bytes.data.toList.length ≤ i := Nat.le_of_not_lt hlt
    rw [List.drop_eq_nil_of_le hle, List.append_nil]
termination_by bytes.size - i

lemma toList_toUTF8 (s : Text) :
    (String.ofList s).toUTF8.toList = s.flatMap String.utf8EncodeChar := by
  rw [ByteArray.toList, toList_loop, String.toUTF8_eq_toByteArray, String.toByteArray_ofList,
    List.utf8Encode, List.toList_data_toByteArray]
  rfl

/-- The length of a text is the number of its bytes. -/
lemma utf8Length_eq (s : Text) : utf8Length s = (s.flatMap String.utf8EncodeChar).length := by
  have hfold : ∀ n, s.foldl (fun n c => n + c.utf8Size) n =
      n + (s.flatMap String.utf8EncodeChar).length := by
    induction s with
    | nil => exact fun n => rfl
    | cons c s ih =>
        intro n
        rw [List.foldl_cons, ih, List.flatMap_cons, List.length_append,
          String.length_utf8EncodeChar, Nat.add_assoc]
  rw [utf8Length, hfold, Nat.zero_add]

lemma utf8Length_cons (c : Char) (s : Text) : utf8Length (c :: s) = c.utf8Size + utf8Length s := by
  rw [utf8Length_eq, utf8Length_eq, List.flatMap_cons, List.length_append,
    String.length_utf8EncodeChar]

lemma utf8Length_singleton (c : Char) : utf8Length [c] = c.utf8Size :=
  utf8Length_cons c []

lemma utf8Length_append (s t : Text) : utf8Length (s ++ t) = utf8Length s + utf8Length t := by
  rw [utf8Length_eq, utf8Length_eq, utf8Length_eq, List.flatMap_append, List.length_append]

lemma one_le_utf8Length {s : Text} (h : s ≠ []) : 1 ≤ utf8Length s := by
  obtain ⟨c, rest, rfl⟩ := List.exists_cons_of_ne_nil h
  rw [utf8Length_cons]
  exact Nat.le_add_right_of_le c.utf8Size_pos

/-- A text without some of its characters has no more bytes. -/
lemma utf8Length_le_of_sublist {s t : Text} (h : s.Sublist t) : utf8Length s ≤ utf8Length t := by
  induction h with
  | slnil => exact Nat.le_refl _
  | cons c _ ih =>
      rw [utf8Length_cons]
      exact Nat.le_add_left_of_le ih
  | cons_cons c _ ih =>
      rw [utf8Length_cons, utf8Length_cons]
      exact Nat.add_le_add_left ih _

/-! ### One character -/

/-- The bytes that a code point is encoded in. -/
inductive Encodes (v : ℕ) : List UInt8 → Prop
  | one {a : UInt8} (hv : v < 0x80) (ha : a.toNat = v) : Encodes v [a]
  | two {a b : UInt8} (hv : 0x80 ≤ v ∧ v < 0x800) (ha : a.toNat = 0xc0 + v / 0x40)
      (hb : b.toNat = 0x80 + v % 0x40) : Encodes v [a, b]
  | three {a b c : UInt8} (hv : 0x800 ≤ v ∧ v < 0x10000) (ha : a.toNat = 0xe0 + v / 0x1000)
      (hb : b.toNat = 0x80 + v / 0x40 % 0x40) (hc : c.toNat = 0x80 + v % 0x40) :
      Encodes v [a, b, c]
  | four {a b c d : UInt8} (hv : 0x10000 ≤ v ∧ v < 0x110000)
      (ha : a.toNat = 0xf0 + v / 0x40000) (hb : b.toNat = 0x80 + v / 0x1000 % 0x40)
      (hc : c.toNat = 0x80 + v / 0x40 % 0x40) (hd : d.toNat = 0x80 + v % 0x40) :
      Encodes v [a, b, c, d]

lemma toNat_valid (c : Char) : c.toNat < 0xd800 ∨ 0xdfff < c.toNat ∧ c.toNat < 0x110000 :=
  c.valid

/-- A character is encoded in the bytes of its code point. -/
lemma encodes_utf8EncodeChar (c : Char) : Encodes c.toNat (String.utf8EncodeChar c) := by
  have hvalid := toNat_valid c
  have hval : c.val.toNat = c.toNat := rfl
  simp only [String.utf8EncodeChar, hval]
  split_ifs with h1 h2 h3
  · exact .one (by omega) (by simp only [UInt8.toNat_ofNat']; omega)
  · refine .two (by omega) ?_ ?_ <;> (simp only [UInt8.toNat_ofNat']; omega)
  · refine .three (by omega) ?_ ?_ ?_ <;> (simp only [UInt8.toNat_ofNat']; omega)
  · refine .four (by omega) ?_ ?_ ?_ ?_ <;> (simp only [UInt8.toNat_ofNat']; omega)

/-! ### Reading back -/

section Step

variable {a b : UInt8}

lemma continuation?_two (ha : 0xc2 ≤ a.toNat ∧ a.toNat < 0xe0) :
    continuation? a = some (1, 0x80, 0xbf) := by
  simp only [continuation?, UInt8.lt_iff_toNat_lt, ← UInt8.toNat_inj, UInt8.reduceToNat]
  rw [if_neg (by omega), if_neg (by omega), if_pos (by omega)]

lemma continuation?_three (ha : 0xe0 ≤ a.toNat ∧ a.toNat < 0xf0)
    (hb : 0x80 ≤ b.toNat ∧ b.toNat ≤ 0xbf) (hlow : a.toNat = 0xe0 → 0xa0 ≤ b.toNat)
    (hhigh : a.toNat = 0xed → b.toNat ≤ 0x9f) :
    ∃ lo hi, continuation? a = some (2, lo, hi) ∧ lo ≤ b ∧ b ≤ hi := by
  simp only [continuation?, UInt8.lt_iff_toNat_lt, ← UInt8.toNat_inj, UInt8.reduceToNat,
    UInt8.le_iff_toNat_le]
  rw [if_neg (by omega), if_neg (by omega), if_neg (by omega)]
  split_ifs with hfirst hsurrogate hlast
  · exact ⟨0xa0, 0xbf, rfl, hlow hfirst, hb.2⟩
  · exact ⟨0x80, 0x9f, rfl, hb.1, hhigh hsurrogate⟩
  · exact ⟨0x80, 0xbf, rfl, hb⟩
  all_goals omega

lemma continuation?_four (ha : 0xf0 ≤ a.toNat ∧ a.toNat ≤ 0xf4)
    (hb : 0x80 ≤ b.toNat ∧ b.toNat ≤ 0xbf) (hlow : a.toNat = 0xf0 → 0x90 ≤ b.toNat)
    (hhigh : a.toNat = 0xf4 → b.toNat ≤ 0x8f) :
    ∃ lo hi, continuation? a = some (3, lo, hi) ∧ lo ≤ b ∧ b ≤ hi := by
  simp only [continuation?, UInt8.lt_iff_toNat_lt, ← UInt8.toNat_inj, UInt8.reduceToNat,
    UInt8.le_iff_toNat_le]
  rw [if_neg (by omega), if_neg (by omega), if_neg (by omega), if_neg (by omega),
    if_neg (by omega), if_neg (by omega)]
  split_ifs with hfirst hmiddle hlast
  · exact ⟨0x90, 0xbf, rfl, hlow hfirst, hb.2⟩
  · exact ⟨0x80, 0xbf, rfl, hb⟩
  · exact ⟨0x80, 0x8f, rfl, hb.1, hhigh hlast⟩
  · omega

lemma continuationBytes_cons {lo hi : UInt8} (hlo : lo ≤ b) (hhi : b ≤ hi) (n : ℕ)
    (rest : List UInt8) : continuationBytes lo hi (n + 1) (b :: rest) =
      b :: continuationBytes 0x80 0xbf n rest :=
  if_pos ⟨hlo, hhi⟩

lemma continuationBytes_cons_sixBits {v : ℕ} (hb : b.toNat = 0x80 + v % 0x40) (n : ℕ)
    (rest : List UInt8) : continuationBytes 0x80 0xbf (n + 1) (b :: rest) =
      b :: continuationBytes 0x80 0xbf n rest := by
  have hlow : (0x80 : UInt8) ≤ b := UInt8.le_iff_toNat_le.2 (by simp; omega)
  have hhigh : b ≤ 0xbf := UInt8.le_iff_toNat_le.2 (by simp; omega)
  exact continuationBytes_cons hlow hhigh n rest

end Step

/-- The first byte of an encoded character, with those after it, gives the character. -/
lemma exists_decodeStep (c : Char) (rest : List UInt8) :
    ∃ lead tail, String.utf8EncodeChar c = lead :: tail ∧
      decodeStep lead (tail ++ rest) = (some c, tail.length) := by
  have hvalid := toNat_valid c
  generalize hbytes : String.utf8EncodeChar c = bytes
  have hencodes := encodes_utf8EncodeChar c
  rw [hbytes] at hencodes
  cases hencodes with
  | @one a hv ha =>
      refine ⟨a, [], rfl, ?_⟩
      have hlead : continuation? a = some (0, 0x80, 0xbf) :=
        if_pos (UInt8.lt_iff_toNat_lt.2 (ha ▸ hv))
      simp [decodeStep, hlead, continuationBytes, leadBits, ha]
  | @two a b hv ha hb =>
      refine ⟨a, [b], rfl, ?_⟩
      have hlead := continuation?_two (a := a) (by omega)
      have htail : continuationBytes 0x80 0xbf 1 (b :: rest) = [b] :=
        continuationBytes_cons_sixBits hb 0 rest
      have hvalue : a.toNat % 0x20 * 0x40 + b.toNat % 0x40 = c.toNat := by omega
      simp [decodeStep, hlead, htail, leadBits, hvalue]
  | @three a b d hv ha hb hd =>
      refine ⟨a, [b, d], rfl, ?_⟩
      obtain ⟨lo, hi, hlead, hlo, hhi⟩ := continuation?_three (a := a) (b := b) (by omega)
        (by omega) (by omega) (by omega)
      have htail : continuationBytes lo hi 2 (b :: d :: rest) = [b, d] := by
        rw [continuationBytes_cons hlo hhi, continuationBytes_cons_sixBits hd, continuationBytes]
      have hvalue : (a.toNat % 0x10 * 0x40 + b.toNat % 0x40) * 0x40 + d.toNat % 0x40 = c.toNat := by
        omega
      simp [decodeStep, hlead, htail, leadBits, hvalue]
  | @four a b d e hv ha hb hd he =>
      refine ⟨a, [b, d, e], rfl, ?_⟩
      obtain ⟨lo, hi, hlead, hlo, hhi⟩ := continuation?_four (a := a) (b := b) (by omega)
        (by omega) (by omega) (by omega)
      have htail : continuationBytes lo hi 3 (b :: d :: e :: rest) = [b, d, e] := by
        rw [continuationBytes_cons hlo hhi, continuationBytes_cons_sixBits hd,
          continuationBytes_cons_sixBits he, continuationBytes]
      have hvalue : ((a.toNat % 8 * 0x40 + b.toNat % 0x40) * 0x40 + d.toNat % 0x40) * 0x40 +
          e.toNat % 0x40 = c.toNat := by
        omega
      simp [decodeStep, hlead, htail, leadBits, hvalue]

/-- An encoded character is read back, whatever follows it. -/
lemma pieces_utf8EncodeChar (c : Char) (rest : List UInt8) :
    pieces decodeStep (String.utf8EncodeChar c ++ rest) = some c :: pieces decodeStep rest := by
  obtain ⟨lead, tail, hbytes, hstep⟩ := exists_decodeStep c rest
  rw [hbytes, List.cons_append, pieces_cons, hstep, List.drop_left]

/-- **A text is read back from its bytes.** -/
theorem decode?_toUTF8 (s : Text) : decode? (String.ofList s).toUTF8 = some s := by
  have hpieces : decodePieces (String.ofList s).toUTF8 = s.map some := by
    rw [decodePieces, toList_toUTF8]
    induction s with
    | nil => exact pieces_nil decodeStep
    | cons c s ih => rw [List.flatMap_cons, pieces_utf8EncodeChar, ih, List.map_cons]
  rw [decode?, hpieces]
  simp

/-! ### The order -/

section Order

variable {a b : UInt8} {x y : List UInt8}

lemma cons_lt_of_lt (h : a.toNat < b.toNat) : a :: x < b :: y :=
  List.cons_lt_cons_iff.2 (.inl (UInt8.lt_iff_toNat_lt.2 h))

lemma cons_lt_of_eq (h : a.toNat = b.toNat) (htail : x < y) : a :: x < b :: y :=
  List.cons_lt_cons_iff.2 (.inr ⟨UInt8.toNat_inj.1 h, htail⟩)

/-- Of two code points the smaller one has the smaller bytes, whatever follows them. -/
lemma Encodes.append_lt {v w : ℕ} {as bs : List UInt8} (ha : Encodes v as) (hb : Encodes w bs)
    (h : v < w) (x y : List UInt8) : as ++ x < bs ++ y := by
  -- bytes of different numbers differ in the first one, as many bytes where their digits do
  cases ha with
  | one hv ha => cases hb <;> exact cons_lt_of_lt (by omega)
  | @two a₁ a₂ hv h₁ h₂ =>
      cases hb with
      | @two b₁ b₂ hw k₁ k₂ =>
          by_cases hfirst : a₁.toNat < b₁.toNat
          · exact cons_lt_of_lt hfirst
          · exact cons_lt_of_eq (by omega) (cons_lt_of_lt (by omega))
      | _ => exact cons_lt_of_lt (by omega)
  | @three a₁ a₂ a₃ hv h₁ h₂ h₃ =>
      cases hb with
      | @three b₁ b₂ b₃ hw k₁ k₂ k₃ =>
          by_cases hfirst : a₁.toNat < b₁.toNat
          · exact cons_lt_of_lt hfirst
          refine cons_lt_of_eq (by omega) ?_
          by_cases hsecond : a₂.toNat < b₂.toNat
          · exact cons_lt_of_lt hsecond
          · exact cons_lt_of_eq (by omega) (cons_lt_of_lt (by omega))
      | _ => exact cons_lt_of_lt (by omega)
  | @four a₁ a₂ a₃ a₄ hv h₁ h₂ h₃ h₄ =>
      cases hb with
      | @four b₁ b₂ b₃ b₄ hw k₁ k₂ k₃ k₄ =>
          by_cases hfirst : a₁.toNat < b₁.toNat
          · exact cons_lt_of_lt hfirst
          refine cons_lt_of_eq (by omega) ?_
          by_cases hsecond : a₂.toNat < b₂.toNat
          · exact cons_lt_of_lt hsecond
          refine cons_lt_of_eq (by omega) ?_
          by_cases hthird : a₃.toNat < b₃.toNat
          · exact cons_lt_of_lt hthird
          · exact cons_lt_of_eq (by omega) (cons_lt_of_lt (by omega))
      | _ => exact cons_lt_of_lt (by omega)

end Order

/-- The characters of texts are ordered as their bytes are. -/
lemma flatMap_utf8EncodeChar_lt {s t : Text} (h : s < t) :
    s.flatMap String.utf8EncodeChar < t.flatMap String.utf8EncodeChar := by
  induction s generalizing t with
  | nil =>
      cases t with
      | nil => exact absurd h (List.lt_irrefl [])
      | cons d t =>
          obtain ⟨lead, tail, hbytes, -⟩ := exists_decodeStep d []
          rw [List.flatMap_cons, hbytes]
          exact List.nil_lt_cons _ _
  | cons c s ih =>
      cases t with
      | nil => exact absurd h (List.not_lt_nil _)
      | cons d t =>
          rw [List.flatMap_cons, List.flatMap_cons]
          rcases List.cons_lt_cons_iff.1 h with hlt | ⟨rfl, htail⟩
          · exact (encodes_utf8EncodeChar c).append_lt (encodes_utf8EncodeChar d) hlt _ _
          · exact List.append_left_lt (ih htail)

/-- **Texts are ordered as their bytes are.** -/
theorem toUTF8_lt {a b : String} (h : a < b) : a.toUTF8.toList < b.toUTF8.toList := by
  have hlt := flatMap_utf8EncodeChar_lt (s := a.toList) (t := b.toList) h
  rwa [← toList_toUTF8, ← toList_toUTF8, String.ofList_toList, String.ofList_toList] at hlt

end CallCensus.Text.Utf8
