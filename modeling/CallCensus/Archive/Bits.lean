/-!
Reading bits and small numbers out of bytes.

Bits are numbered from the least significant bit of the first byte. A read that would
go beyond the end gives `none`.
-/

namespace CallCensus.Archive

/-- The bit at a position, as a number. -/
def bit? (data : ByteArray) (pos : Nat) : Option Nat :=
  data[pos / 8]?.map fun b => (b.toNat >>> (pos % 8)) % 2

/-- The number that `n` bits from a position write, least significant bit first. -/
def bits? (data : ByteArray) : (n pos : Nat) → Option Nat
  | 0, _ => some 0
  | n + 1, pos =>
    match bit? data pos with
    | none => none
    | some b => (bits? data n (pos + 1)).map fun rest => b + 2 * rest

/-- The number that `n` bytes from a position write, least significant byte first. -/
def littleEndian? (data : ByteArray) : (n pos : Nat) → Option Nat
  | 0, _ => some 0
  | n + 1, pos =>
    match data[pos]? with
    | none => none
    | some b => (littleEndian? data n (pos + 1)).map fun rest => b.toNat + 256 * rest

end CallCensus.Archive
