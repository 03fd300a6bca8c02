import CallCensus.Archive.Checksum
import CallCensus.Archive.Inflate

/-!
Compressed files: a header, deflated data, and a trailer with a check and the size.

* `Stream`: what a reader of decompressed data gets. It reads bytes as long as there are
  any, and only when it goes on after them does it learn whether the data ended there
  properly;
* `Stream.ofGzip`: the stream of a compressed file. Only its first member counts.
-/

namespace CallCensus.Archive

/-- Bytes to be read, and whether they end properly. -/
structure Stream where
  bytes : ByteArray
  endsWell : Bool

/-- The most bytes that a text in a header may have. -/
def maxHeaderText : Nat := 65535

/-- The position after the zero byte that ends a text of at most `n` bytes. -/
def skipHeaderText? (data : ByteArray) : (n pos : Nat) → Option Nat
  | 0, pos => if data[pos]? = some 0 then some (pos + 1) else none
  | n + 1, pos =>
    match data[pos]? with
    | none => none
    | some b => if b = 0 then some (pos + 1) else skipHeaderText? data n (pos + 1)

/-- The position after a header's extra field. -/
def skipExtra? (data : ByteArray) (pos : Nat) : Option Nat :=
  match littleEndian? data 2 pos with
  | none => none
  | some n => if pos + 2 + n ≤ data.size then some (pos + 2 + n) else none

/-- The position after a header's check of itself, if the check is right. -/
def skipHeaderCheck? (data : ByteArray) (pos : Nat) : Option Nat :=
  match littleEndian? data 2 pos with
  | none => none
  | some n =>
    if n = (crc32 (data.extract 0 pos)).toNat % 0x10000 then some (pos + 2) else none

/-- Do a step if a flag is set. -/
def whenSet (flags bit : Nat) (step : Nat → Option Nat) (pos : Nat) : Option Nat :=
  if flags / bit % 2 = 1 then step pos else some pos

/-- The position after the header of a compressed file. -/
def gzipHeader? (data : ByteArray) : Option Nat :=
  match littleEndian? data 3 0, data[3]? with
  | some magic, some flags =>
    if magic ≠ 0x088b1f ∨ 0x20 ≤ flags.toNat ∨ data.size < 10 then none
    else
      (whenSet flags.toNat 4 (skipExtra? data) 10)
        |>.bind (whenSet flags.toNat 8 (skipHeaderText? data maxHeaderText))
        |>.bind (whenSet flags.toNat 16 (skipHeaderText? data maxHeaderText))
        |>.bind (whenSet flags.toNat 2 (skipHeaderCheck? data))
  | _, _ => none

/-- Whether a trailer at a position belongs to the given output. -/
def trailerFits (data out : ByteArray) (pos : Nat) : Bool :=
  littleEndian? data 4 pos == some (crc32 out).toNat &&
    littleEndian? data 4 (pos + 4) == some (out.size % 1 <<< 32)

/-- The stream of a compressed file. -/
def Stream.ofGzip (data : ByteArray) : Stream :=
  match gzipHeader? data with
  | none => ⟨.empty, false⟩
  | some start =>
    match Inflater.inflate data start with
    | .error out => ⟨out, false⟩
    | .ok (out, pos) => ⟨out, trailerFits data out pos⟩

end CallCensus.Archive
