import CallCensus.Text.Basic
import CallCensus.Text.Pieces

/-!
Reading bytes as UTF-8.

A byte sequence is cut into pieces, each of which is either one encoded character
or a malformed part. A malformed part is as long as some encoded character goes on
that way: the bytes that could still have started one, and at least one byte.

* `decode?`: strict reading, which refuses malformed parts;
* `decodeLossy`: every malformed part becomes the replacement character.
-/

namespace CallCensus.Text.Utf8

/-- How many bytes follow a leading byte, and the bounds of the first of them; the
others lie between `0x80` and `0xbf`. -/
def continuation? (lead : UInt8) : Option (Nat × UInt8 × UInt8) :=
  if lead < 0x80 then some (0, 0x80, 0xbf)
  else if lead < 0xc2 then none
  else if lead < 0xe0 then some (1, 0x80, 0xbf)
  else if lead = 0xe0 then some (2, 0xa0, 0xbf)
  else if lead = 0xed then some (2, 0x80, 0x9f)
  else if lead < 0xf0 then some (2, 0x80, 0xbf)
  else if lead = 0xf0 then some (3, 0x90, 0xbf)
  else if lead < 0xf4 then some (3, 0x80, 0xbf)
  else if lead = 0xf4 then some (3, 0x80, 0x8f)
  else none

/-- The first bytes of a list, at most `n`, that continue a character: the first
lies between `lo` and `hi`, the others between `0x80` and `0xbf`. -/
def continuationBytes (lo hi : UInt8) : Nat → List UInt8 → List UInt8
  | 0, _ => []
  | _ + 1, [] => []
  | n + 1, b :: rest =>
    if lo ≤ b ∧ b ≤ hi then b :: continuationBytes 0x80 0xbf n rest else []

/-- The bits of a leading byte that belong to the code point, when `n` bytes
follow. -/
def leadBits (lead : UInt8) : Nat → Nat
  | 0 => lead.toNat
  | n + 1 => lead.toNat % 1 <<< (5 - n)

/-- The piece at the head of a byte sequence, with the number of bytes that it
takes after the first: a character, or `none` for a malformed part. -/
def decodeStep (lead : UInt8) (rest : List UInt8) : Option Char × Nat :=
  match continuation? lead with
  | none => (none, 0)
  | some (n, lo, hi) =>
    let tail := continuationBytes lo hi n rest
    if tail.length = n then
      (some (Char.ofNat (tail.foldl (fun v b => v * 64 + b.toNat % 64) (leadBits lead n))), n)
    else (none, tail.length)

/-- The characters and malformed parts of a byte sequence. -/
def decodePieces (bytes : ByteArray) : List (Option Char) :=
  pieces decodeStep bytes.toList

/-- The text of a byte sequence, if all of it is well formed. -/
def decode? (bytes : ByteArray) : Option Text :=
  let parts := decodePieces bytes
  if parts.all Option.isSome then some (parts.filterMap id) else none

/-- The text of a byte sequence, with every malformed part replaced by U+FFFD. -/
def decodeLossy (bytes : ByteArray) : Text :=
  (decodePieces bytes).map fun c => c.getD (Char.ofNat 0xfffd)

end CallCensus.Text.Utf8
