import CallCensus.Archive.Contents
import Mathlib.Algebra.Order.Ring.Nat

/-!
Archives whose data is stored as it is.

The simplest compressed file has one block, which holds its data byte for byte, and the simplest
archive is a sequence of header blocks, each with the data of its member after it, filled up to
whole blocks. Such files are read as they are written.

* `bits?_eq_littleEndian?`: bits from a byte boundary on are bytes;
* `storedGzip`, `ofGzip_storedGzip`: a compressed file of one stored block;
* `Member`, `ofStream_joined`: a sequence of members;
* `open?_storedGzip`: the archive that is made of both.
-/

namespace CallCensus.Archive

/-! ### Bytes and bits -/

/-- The numbers of 8 bits that write a number, the least significant first. -/
def littleEndian : (n k : ℕ) → List UInt8
  | 0, _ => []
  | n + 1, k => .ofNat k :: littleEndian n (k / 256)

@[simp] lemma length_littleEndian (n k : ℕ) : (littleEndian n k).length = n := by
  induction n generalizing k with
  | zero => rfl
  | succ n ih => rw [littleEndian, List.length_cons, ih]

/-- To fold over bytes is to fold over their list. -/
lemma foldl_eq_toList {β : Type} (f : β → UInt8 → β) (init : β) (data : ByteArray) :
    data.foldl f init = data.data.toList.foldl f init := by
  have hloop : ∀ (stop : ℕ) (h : stop ≤ data.size) (i j : ℕ) (b : β),
      ByteArray.foldlM.loop (m := Id) (fun b x => pure (f b x)) data stop h i j b =
        Array.foldlM.loop (m := Id) (fun b x => pure (f b x)) data.data stop h i j b := by
    intro stop h i
    induction i with
    | zero =>
        intro j b
        unfold ByteArray.foldlM.loop Array.foldlM.loop
        rfl
    | succ i ih =>
        intro j b
        unfold ByteArray.foldlM.loop Array.foldlM.loop
        split
        · exact ih _ _
        · rfl
  rw [Array.foldl_toList]
  simp only [ByteArray.foldl, ByteArray.foldlM, Array.foldl, Array.foldlM, ByteArray.size,
    Nat.le_refl, dif_pos]
  exact congrArg Id.run (hloop _ (Nat.le_refl _) _ _ init)

variable {data : ByteArray} {b : UInt8} {rest : List UInt8} {n k i : ℕ}

lemma getElem?_of_drop (h : data.data.toList.drop i = b :: rest) : data[i]? = some b := by
  have hget : data.data.toList[i]? = some b := by
    rw [← List.head?_drop, h]
    rfl
  rw [Array.getElem?_toList] at hget
  exact hget

lemma drop_add_of_drop {part : List UInt8} (h : data.data.toList.drop i = part ++ rest) :
    data.data.toList.drop (i + part.length) = rest := by
  rw [← List.drop_drop, h, List.drop_left]

lemma drop_succ_of_drop (h : data.data.toList.drop i = b :: rest) :
    data.data.toList.drop (i + 1) = rest :=
  @drop_add_of_drop data rest i [b] h

/-- A number that stands in the data is read. -/
lemma littleEndian?_of_drop (h : data.data.toList.drop i = littleEndian n k ++ rest)
    (hk : k < 256 ^ n) : littleEndian? data n i = some k := by
  induction n generalizing k i with
  | zero =>
      rw [Nat.lt_one_iff.1 hk]
      rfl
  | succ n ih =>
      rw [littleEndian, List.cons_append] at h
      have hrest : k / 256 < 256 ^ n := by
        rw [Nat.div_lt_iff_lt_mul (by decide), ← Nat.pow_succ]
        exact hk
      simp only [littleEndian?, getElem?_of_drop h, ih (drop_succ_of_drop h) hrest,
        Option.map_some, UInt8.toNat_ofNat']
      congr 1
      omega

lemma bit?_eq (h : data[i]? = some b) {j : ℕ} (hj : j < 8) :
    bit? data (8 * i + j) = some (b.toNat / 2 ^ j % 2) := by
  have hdiv : (8 * i + j) / 8 = i := by omega
  have hmod : (8 * i + j) % 8 = j := by omega
  rw [bit?, hdiv, hmod, h, Option.map_some, Nat.shiftRight_eq_div_pow]

/-- The last `d` bits of a byte, and then more of them. -/
lemma bits?_of_getElem? (h : data[i]? = some b) {d : ℕ} (hd : d ≤ 8) :
    bits? data (n + d) (8 * i + (8 - d)) =
      (bits? data n (8 * (i + 1))).map fun more => b.toNat / 2 ^ (8 - d) + 2 ^ d * more := by
  induction d with
  | zero =>
      have hb : b.toNat / 2 ^ 8 = 0 := Nat.div_eq_of_lt b.toNat_lt
      simp only [Nat.add_zero, Nat.sub_zero, Nat.pow_zero, Nat.one_mul, Nat.zero_add, Nat.mul_add,
        Nat.mul_one, hb, Option.map_id']
  | succ d ih =>
      have hhalf : b.toNat / 2 ^ (8 - d) = b.toNat / 2 ^ (8 - (d + 1)) / 2 := by
        rw [Nat.div_div_eq_div_mul, ← Nat.pow_succ]
        congr 2
        omega
      have hnext : 8 * i + (8 - (d + 1)) + 1 = 8 * i + (8 - d) := by omega
      rw [← Nat.add_assoc, bits?, bit?_eq h (by omega)]
      simp only [hnext, ih (by omega), Option.map_map]
      congr 1
      funext more
      simp only [Function.comp_apply, hhalf, Nat.pow_succ]
      rw [Nat.mul_comm (2 ^ d) 2, Nat.mul_assoc]
      omega

/-- Bits from a byte boundary on are bytes. -/
lemma bits?_eq_littleEndian? (data : ByteArray) (n i : ℕ) :
    bits? data (8 * n) (8 * i) = littleEndian? data n i := by
  induction n generalizing i with
  | zero => rfl
  | succ n ih =>
      rw [littleEndian?]
      cases h : data[i]? with
      | none =>
          have hbit : bit? data (8 * i) = none := by
            rw [bit?, Nat.mul_div_cancel_left _ (by decide), h]
            rfl
          rw [Nat.mul_succ, bits?, hbit]
      | some b =>
          have hbyte := bits?_of_getElem? h (n := 8 * n) (Nat.le_refl 8)
          rw [Nat.sub_self, Nat.pow_zero, Nat.div_one, ih] at hbyte
          exact hbyte

/-! ### Compressed files -/

namespace Inflater

/-- A decompression of `data` that has come to byte `i` and has put out `out`. -/
structure At (s : Inflater) (data : ByteArray) (i : ℕ) (out : ByteArray) : Prop where
  data : s.data = data
  pos : s.pos = 8 * i
  out : s.out = out

@[simp] lemma data_moveTo (s : Inflater) (pos : ℕ) : (s.moveTo pos).data = s.data := by
  rw [moveTo]
  split_ifs <;> rfl

@[simp] lemma pos_moveTo (s : Inflater) (pos : ℕ) : (s.moveTo pos).pos = pos := by
  rw [moveTo]
  split_ifs <;> rfl

@[simp] lemma out_moveTo (s : Inflater) (pos : ℕ) : (s.moveTo pos).out = s.out := by
  rw [moveTo]
  split_ifs <;> rfl

variable {s : Inflater} {out : ByteArray} {bytes : List UInt8}

lemma exists_takeBits (h : s.At data i out) (hread : littleEndian? data n i = some k) :
    ∃ s', s.takeBits (8 * n) = .ok (k, s') ∧ s'.At data (i + n) out := by
  obtain ⟨rfl, hpos, rfl⟩ := h
  refine ⟨s.moveTo (8 * (i + n)), ?_, by simp, by simp, by simp⟩
  rw [takeBits, hpos, bits?_eq_littleEndian?, hread, ← Nat.mul_add]

/-- Stored bytes are put out as they are. -/
lemma exists_stored (h : s.At data i out) (hdrop : data.data.toList.drop i = bytes ++ rest) :
    ∃ s', stored bytes.length s = .ok s' ∧
      s'.At data (i + bytes.length) ⟨out.data ++ bytes.toArray⟩ := by
  induction bytes generalizing s i out with
  | nil => exact ⟨s, rfl, h.data, h.pos, by simp [h.out]⟩
  | cons b bytes ih =>
      have hbyte : littleEndian? data 1 i = some b.toNat := by
        rw [littleEndian?, getElem?_of_drop hdrop]
        rfl
      obtain ⟨s₁, htake, hs₁⟩ := exists_takeBits h hbyte
      have hemit : (s₁.emit (.ofNat b.toNat)).At data (i + 1) ⟨out.data.push b⟩ := by
        refine ⟨hs₁.data, hs₁.pos, ?_⟩
        rw [emit, hs₁.out, UInt8.ofNat_toNat]
        rfl
      obtain ⟨s₂, hstored, hs₂⟩ := ih hemit (drop_succ_of_drop hdrop)
      refine ⟨s₂, ?_, hs₂.data, ?_, ?_⟩
      · rw [List.length_cons, stored]
        simp only [htake, hstored]
      · rw [hs₂.pos, List.length_cons]
        omega
      · rw [hs₂.out]
        simp

/-- A stored block, from the byte that its first bits are in. -/
lemma exists_storedBlock {content : ByteArray} (hsize : content.size < 2 ^ 16)
    (hpos : 8 * i < s.pos) (hpos' : s.pos ≤ 8 * (i + 1))
    (hdrop : s.data.data.toList.drop (i + 1) = littleEndian 2 content.size ++
      (littleEndian 2 (0xffff - content.size) ++ (content.data.toList ++ rest))) :
    ∃ s', s.storedBlock = .ok s' ∧
      s'.At s.data (i + 5 + content.size) ⟨s.out.data ++ content.data⟩ := by
  have hstart : (s.moveTo ((s.pos + 7) / 8 * 8)).At s.data (i + 1) s.out := by
    refine ⟨by simp, ?_, by simp⟩
    rw [pos_moveTo]
    omega
  obtain ⟨s₁, hlength, hs₁⟩ := exists_takeBits hstart (littleEndian?_of_drop hdrop (by omega))
  have hdrop := drop_add_of_drop hdrop
  obtain ⟨s₂, hcomplement, hs₂⟩ :=
    exists_takeBits hs₁ (littleEndian?_of_drop hdrop (by omega))
  obtain ⟨s₃, hstored, hs₃⟩ := exists_stored hs₂ (drop_add_of_drop hdrop)
  refine ⟨s₃, ?_, ?_⟩
  · have hsum : content.size + (0xffff - content.size) = 0xffff := by omega
    rw [storedBlock, hlength]
    simp only [hcomplement, if_pos hsum]
    exact hstored
  · exact ⟨hs₃.data, hs₃.pos, hs₃.out⟩

end Inflater

/-- The header of a compressed file that says nothing about its data. -/
def plainGzipHeader : List UInt8 :=
  [0x1f, 0x8b, 8, 0, 0, 0, 0, 0, 0, 0xff]

/-- A compressed file that stores its data in one block. -/
def storedGzip (data : ByteArray) : ByteArray :=
  ⟨(plainGzipHeader ++ 1 :: littleEndian 2 data.size ++ littleEndian 2 (0xffff - data.size) ++
    data.data.toList ++ littleEndian 4 (crc32 data).toNat ++ littleEndian 4 data.size).toArray⟩

lemma toList_storedGzip (data : ByteArray) :
    (storedGzip data).data.toList = plainGzipHeader ++ (1 :: (littleEndian 2 data.size ++
      (littleEndian 2 (0xffff - data.size) ++ (data.data.toList ++
        (littleEndian 4 (crc32 data).toNat ++ littleEndian 4 data.size))))) := by
  simp [storedGzip]

/-- Its data begins after the header. -/
lemma gzipHeader?_storedGzip (data : ByteArray) : gzipHeader? (storedGzip data) = some 10 := by
  have hdrop : (storedGzip data).data.toList.drop 0 = littleEndian 3 0x088b1f ++ _ :=
    toList_storedGzip data
  have hflags : (storedGzip data)[3]? = some 0 := getElem?_of_drop (drop_add_of_drop hdrop)
  have hsize : ¬(storedGzip data).size < 10 := by
    rw [← ByteArray.size_data, ← Array.length_toList, toList_storedGzip]
    simp [plainGzipHeader]
  rw [gzipHeader?, littleEndian?_of_drop hdrop (by decide), hflags]
  simp [hsize, whenSet]

/-- Its only block is decompressed. -/
lemma inflate_storedGzip (hsize : data.size < 2 ^ 16) :
    Inflater.inflate (storedGzip data) 10 = .ok (data, 15 + data.size) := by
  have hblock : (storedGzip data).data.toList.drop 10 = 1 :: _ :=
    drop_add_of_drop (i := 0) (toList_storedGzip data)
  have hone := getElem?_of_drop hblock
  have hhead : bits? (storedGzip data) 3 80 = some 1 := by
    simp [bits?, bit?_eq hone (j := 0), bit?_eq hone (j := 1), bit?_eq hone (j := 2)]
  let s : Inflater := ⟨storedGzip data, 80, .empty, (80 - 1) / (8 * chunkSize), 0⟩
  obtain ⟨s', hstored, hs'⟩ := Inflater.exists_storedBlock (s := s.moveTo 83) (i := 10) hsize
    (by simp) (by simp) (by rw [Inflater.data_moveTo]; exact drop_succ_of_drop hblock)
  have hout : s'.out = data := by
    rw [hs'.out, Inflater.out_moveTo]
    exact ByteArray.ext (Array.empty_append)
  have hpos : (s'.pos + 7) / 8 = 15 + data.size := by
    rw [hs'.pos]
    omega
  have htake : s.takeBits 3 = .ok (1, s.moveTo 83) := by
    rw [Inflater.takeBits]
    simp only [s, hhead]
  have hblocks : ∀ size steps, Inflater.blocks size (steps + 1) s = .ok s' := by
    intro size steps
    rw [Inflater.blocks]
    simp [htake, hstored]
  rw [Inflater.inflate]
  simp only [s] at hblocks
  simp [hblocks, Except.map, hout, hpos]

/-- **A compressed file of one stored block is read as it was written.** -/
theorem ofGzip_storedGzip (hsize : data.size < 2 ^ 16) :
    Stream.ofGzip (storedGzip data) = ⟨data, true⟩ := by
  have hparts : (storedGzip data).data.toList.drop 0 =
      (plainGzipHeader ++ 1 :: littleEndian 2 data.size ++ littleEndian 2 (0xffff - data.size) ++
        data.data.toList) ++ (littleEndian 4 (crc32 data).toNat ++ littleEndian 4 data.size) := by
    simp [storedGzip]
  have hcheck := drop_add_of_drop hparts
  have hlength : 0 + (plainGzipHeader ++ 1 :: littleEndian 2 data.size ++
      littleEndian 2 (0xffff - data.size) ++ data.data.toList).length = 15 + data.size := by
    simp [plainGzipHeader]
    omega
  rw [hlength] at hcheck
  have htotal := drop_add_of_drop hcheck
  have htrailer : trailerFits (storedGzip data) data (15 + data.size) = true := by
    have hmod : data.size % 1 <<< 32 = data.size := Nat.mod_eq_of_lt (by omega)
    rw [length_littleEndian, ← List.append_nil (littleEndian 4 data.size)] at htotal
    rw [trailerFits, littleEndian?_of_drop hcheck (UInt32.toNat_lt _),
      littleEndian?_of_drop htotal (by omega), hmod]
    simp
  rw [Stream.ofGzip, gzipHeader?_storedGzip]
  simp only [inflate_storedGzip hsize, htrailer]

/-! ### Members -/

/-- A header in order, of a member in its own right with `size` bytes: it is none of the kinds that
say something about the next member, or that have holes. -/
structure Header.Describes (h : Header) (size : ℕ) : Prop where
  size_block : h.block.size = blockSize
  isZero : h.isZero = false
  sumFits : h.sumFits = true
  size? : h.size? = some size
  kind : h.kind ∉ ['L', 'K', 'x', 'S']

lemma Header.sumFits_iff (h : Header) :
    h.sumFits = true ↔ (octal? (h.field 148 8)).map (· % 1 <<< 32) =
      some (h.block.data.toList.foldl (fun n b => n + b.toNat) 0 -
        (h.field 148 8).data.toList.foldl (fun n b => n + b.toNat) 0 + 8 * 32) := by
  rw [← foldl_eq_toList, ← foldl_eq_toList, sumFits, sum]
  cases octal? (h.field 148 8) <;> simp

/-- Whether a header is in order is found out by the checks of its reader. -/
instance (h : Header) (size : ℕ) : Decidable (h.Describes size) :=
  decidable_of_iff (h.block.size = blockSize ∧ h.isZero = false ∧ _ ∧ h.size? = some size ∧
      h.kind ∉ ['L', 'K', 'x', 'S'])
    ⟨fun ⟨hblock, hzero, hsum, hsize, hkind⟩ =>
        ⟨hblock, hzero, h.sumFits_iff.2 hsum, hsize, hkind⟩,
      fun ⟨hblock, hzero, hsum, hsize, hkind⟩ =>
        ⟨hblock, hzero, h.sumFits_iff.1 hsum, hsize, hkind⟩⟩

/-- A member of an archive in its own right. -/
structure Member where
  header : Header
  data : ByteArray
  describes : header.Describes data.size

namespace Member

/-- The zeros that fill up the last block of a member. -/
def padding (m : Member) : ByteArray :=
  ⟨(List.replicate ((m.data.size + (blockSize - 1)) / blockSize * blockSize - m.data.size)
    0).toArray⟩

/-- A member as it stands in an archive. -/
def bytes (m : Member) : ByteArray :=
  m.header.block ++ (m.data ++ m.padding)

/-- What a reader of the archive sees of a member. -/
def entry (m : Member) : Entry :=
  ⟨m.header.isRegular, .ok (String.ofList (Text.Utf8.decodeLossy m.header.name)), .ok m.data⟩

lemma size_bytes (m : Member) :
    m.bytes.size = blockSize + (m.data.size + (blockSize - 1)) / blockSize * blockSize := by
  have hpadding : m.padding.size =
      (m.data.size + (blockSize - 1)) / blockSize * blockSize - m.data.size := by
    rw [padding, ← ByteArray.size_data]
    simp
  rw [bytes, ByteArray.size_append, ByteArray.size_append, m.describes.size_block, hpadding,
    blockSize]
  omega

end Member

/-- A header block that holds the name of a file, its size and the sum of the block, and zeros
elsewhere. -/
def fileHeader (name size sum : String) : Header :=
  let field (n : ℕ) (text : String) : List UInt8 :=
    text.toUTF8.data.toList ++ List.replicate (n - text.utf8ByteSize) 0
  ⟨⟨(field 124 name ++ field 24 size ++ field (blockSize - 148) sum).toArray⟩⟩

/-- The bytes of an archive. It ends with its last member. -/
def joined (members : List Member) : ByteArray :=
  members.foldr (fun m rest => m.bytes ++ rest) .empty

lemma length_mul_le (members : List Member) :
    members.length * blockSize ≤ (joined members).size := by
  induction members with
  | nil => simp
  | cons m members ih =>
      rw [joined, List.foldr_cons, ← joined, ByteArray.size_append, m.size_bytes, List.length_cons,
        Nat.succ_mul]
      omega

variable {s : Stream}

lemma extract_middle (before part after : ByteArray) :
    (before ++ (part ++ after)).extract before.size (before.size + part.size) = part := by
  have h := ByteArray.extract_append_size_add (a := before) (b := part ++ after) (i := 0)
    (j := part.size)
  rwa [Nat.add_zero, ByteArray.extract_append_eq_left rfl] at h

section Reading

variable {before after : ByteArray} {m : Member}

/-- The header of a member that comes after `before`. -/
lemma header_of_member (hbytes : s.bytes = before ++ (m.bytes ++ after)) :
    s.header before.size = .ok (some m.header) := by
  have hroom : before.size + blockSize ≤ s.bytes.size := by
    rw [hbytes, ByteArray.size_append, ByteArray.size_append, m.size_bytes]
    omega
  have hblock : s.bytes.extract before.size (before.size + blockSize) = m.header.block := by
    rw [hbytes, Member.bytes, ByteArray.append_assoc, ← m.describes.size_block]
    exact extract_middle _ _ _
  rw [Stream.header, if_pos hroom, hblock]
  simp [m.describes.isZero, m.describes.sumFits]

/-- The data of such a member. -/
lemma read_of_member (hends : s.endsWell = true) (hbytes : s.bytes = before ++ (m.bytes ++ after)) :
    s.read (before.size + blockSize) m.data.size = .ok m.data := by
  have hdata : s.bytes.extract (before.size + blockSize) (before.size + blockSize + m.data.size) =
      m.data := by
    have h := extract_middle (before ++ m.header.block) m.data (m.padding ++ after)
    rw [ByteArray.size_append, m.describes.size_block] at h
    rw [hbytes, Member.bytes]
    simpa [ByteArray.append_assoc] using h
  rw [Stream.read, if_neg (by simp [hends]), hdata]

/-- What is found there. -/
lemma found_of_member (hends : s.endsWell = true) (hbytes : s.bytes = before ++ (m.bytes ++ after))
    (hsize : s.bytes.size + blockSize < 2 ^ 64) :
    s.found .nothing before.size = .entry m.entry (before ++ m.bytes).size := by
  have hlength : s.bytes.size = before.size + (m.bytes.size + after.size) := by
    rw [hbytes, ByteArray.size_append, ByteArray.size_append]
  have hnext : after? (before.size + blockSize) m.data.size = some (before ++ m.bytes).size := by
    have hword : 1 <<< 64 = 2 ^ 64 := rfl
    rw [ByteArray.size_append]
    rw [m.size_bytes] at hlength ⊢
    rw [after?, hword, if_pos] <;> simp only [blockSize] at *
    · congr 1
      omega
    · omega
  have hkind := m.describes.kind
  simp only [List.mem_cons, List.not_mem_nil, or_false, not_or] at hkind
  rw [Stream.found, header_of_member hbytes]
  simp [Description.sizeOf?, Description.nothing, m.describes.size?, hnext, Stream.member, hkind,
    read_of_member hends hbytes, Description.nameOf, Member.entry]

end Reading

namespace Contents

/-- **The members of an archive are read as they were written**, after those that went before. -/
lemma entriesOnto_joined (hends : s.endsWell = true) (members : List Member) (before : ByteArray)
    (hbytes : s.bytes = before ++ joined members) (hsize : s.bytes.size + blockSize < 2 ^ 64)
    (done : List Entry) {steps : ℕ} (hsteps : members.length < steps) :
    entriesOnto s done steps .nothing before.size =
      ⟨done.reverse ++ members.map Member.entry, none⟩ := by
  induction members generalizing before done steps with
  | nil =>
      obtain ⟨steps, rfl⟩ := Nat.exists_eq_succ_of_ne_zero (Nat.ne_of_gt hsteps)
      have hsize : s.bytes.size = before.size := by
        rw [hbytes, joined, List.foldr_nil, ByteArray.append_empty]
      have hend : s.header before.size = .ok none := by
        rw [Stream.header, if_neg (by rw [hsize, blockSize]; omega), if_pos ⟨hsize.symm, hends⟩]
      rw [entriesOnto, Stream.found, hend]
      simp [Description.isNothing, Description.nothing]
  | cons m members ih =>
      obtain ⟨steps, rfl⟩ := Nat.exists_eq_succ_of_ne_zero (Nat.ne_zero_of_lt hsteps)
      have hbytes' : s.bytes = before ++ (m.bytes ++ joined members) := hbytes
      rw [entriesOnto, found_of_member hends hbytes' hsize]
      have hmore := ih (before ++ m.bytes) (by rw [hbytes', ByteArray.append_assoc])
        (m.entry :: done) (Nat.lt_of_succ_lt_succ hsteps)
      simpa using hmore

/-- **A sequence of members is read as it was written.** -/
theorem ofStream_joined (members : List Member) (hsize : (joined members).size < 2 ^ 63) :
    ofStream ⟨joined members, true⟩ = ⟨members.map Member.entry, none⟩ := by
  have hsteps : members.length < (joined members).size / blockSize + 1 :=
    Nat.lt_succ_of_le ((Nat.le_div_iff_mul_le (by decide)).2 (length_mul_le members))
  exact entriesOnto_joined rfl members .empty ByteArray.empty_append.symm
    (by simp only [blockSize]; omega) [] hsteps

/-- **An archive that was stored as it is is read as it was written.** -/
theorem open?_storedGzip {tree : FileTree} {path : String} {members : List Member}
    (hlook : tree.look path = .ok (.file (storedGzip (joined members))))
    (hsize : (joined members).size < 2 ^ 16) :
    open? tree path = .ok ⟨members.map Member.entry, none⟩ := by
  simp only [open?, hlook]
  rw [ofGzip_storedGzip hsize, ofStream_joined members (by omega)]

end Contents

end CallCensus.Archive
