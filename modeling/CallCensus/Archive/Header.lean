import CallCensus.Text.Utf8

/-!
Header blocks of archives.

An archive is a sequence of blocks of 512 bytes. Each member starts with a header block
that gives its name, its size and its kind in fields at fixed places. Numbers are octal
digits as text, and a size may also be eight binary bytes. Two extensions of the format
mark their headers, each with a magic text of its own.
-/

namespace CallCensus.Archive

/-- The size of a block. -/
def blockSize : Nat := 512

/-- A header block. -/
structure Header where
  block : ByteArray

namespace Header

/-- The bytes of a field. -/
def field (h : Header) (start size : Nat) : ByteArray :=
  h.block.extract start (start + size)

/-- The bytes before the first zero byte. -/
def untilZero (bytes : ByteArray) : ByteArray :=
  ⟨bytes.data.takeWhile (· != 0)⟩

/-- The value of digits in a base up to ten, if they are digits of that base and the
value fits into 64 bits. At least one digit is needed, and a plus sign may stand before
them. -/
def unsigned? (base : Nat) (s : Text) : Option Nat :=
  let digits := match s with
    | '+' :: digits => digits
    | digits => digits
  let digit? (c : Char) : Option Nat :=
    if '0' ≤ c ∧ c.toNat < '0'.toNat + base then some (c.toNat - '0'.toNat) else none
  if digits.isEmpty then none
  else
    (digits.foldlM (fun n c => (digit? c).map fun d => n * base + d) 0).filter (· < 1 <<< 64)

/-- The number in a field of octal digits, with white space around them. -/
def octal? (bytes : ByteArray) : Option Nat :=
  (Text.Utf8.decode? (untilZero bytes)).bind fun s => unsigned? 8 (Text.trim s)

/-- Whether all bytes of the block are zero, which ends an archive. -/
def isZero (h : Header) : Bool :=
  h.block.data.all (· == 0)

/-- The sum of the bytes of the block, with the field of the sum itself read as spaces. -/
def sum (h : Header) : Nat :=
  let total := h.block.foldl (fun n b => n + b.toNat) 0
  let own := (h.field 148 8).foldl (fun n b => n + b.toNat) 0
  total - own + 8 * 32

/-- Whether the block holds the sum of its bytes. -/
def sumFits (h : Header) : Bool :=
  match octal? (h.field 148 8) with
  | none => false
  | some n => n % 1 <<< 32 == h.sum

/-- The size of the member's contents. -/
def size? (h : Header) : Option Nat :=
  let bytes := h.field 124 12
  if (0x80 : UInt8) ≤ bytes[0]?.getD 0 then
    some ((bytes.extract 4 12).foldl (fun n b => n * 256 + b.toNat) 0)
  else octal? bytes

/-- The kind of the member. -/
def kind (h : Header) : Char :=
  Char.ofNat ((h.block[156]?.getD 0).toNat)

/-- Whether the member is a regular file. -/
def isRegular (h : Header) : Bool :=
  h.kind == '0' || h.kind == Char.ofNat 0

/-- Whether a field holds a given text. -/
def holds (h : Header) (start : Nat) (text : String) : Bool :=
  (h.field start text.utf8ByteSize).data == text.toUTF8.data

/-- Whether the header has the standard extension, which adds a directory name. -/
def isUstar (h : Header) : Bool :=
  h.holds 257 "ustar\x0000"

/-- Whether the header has the other extension, which adds sparse files. -/
def isGnu (h : Header) : Bool :=
  h.holds 257 "ustar  \x00"

/-- The name of the member, with its directory name if the header has one. -/
def name (h : Header) : ByteArray :=
  let own := untilZero (h.field 0 100)
  let directory := untilZero (h.field 345 155)
  if h.isUstar && directory.size != 0 then directory ++ "/".toUTF8 ++ own else own

end Header

end CallCensus.Archive
