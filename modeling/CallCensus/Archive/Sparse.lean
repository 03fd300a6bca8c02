import CallCensus.Archive.Header

/-!
Sparse members: files with holes, of which an archive holds only the parts between.

Nothing is done with such members, but their headers are checked: the parts must be in
order, all but the last must fill whole blocks, and together they must make up the size
in the archive and reach up to the real size.
-/

namespace CallCensus.Archive.Sparse

/-- How far the parts of a sparse member have been checked. -/
structure Progress where
  /-- Where the last part ends in the file. -/
  reached : Nat
  /-- How many bytes of the parts are not accounted for. -/
  remaining : Nat

/-- Check the part that a descriptor of 24 bytes gives; a descriptor that starts either
of its numbers with zero gives none. -/
def addPart? (size : Nat) (p : Progress) (descriptor : ByteArray) : Option Progress :=
  if descriptor[0]? = some 0 ∨ descriptor[12]? = some 0 then some p
  else
    match Header.octal? (descriptor.extract 0 12), Header.octal? (descriptor.extract 12 24) with
    | some offset, some length =>
      if length ≠ 0 ∧ (size - p.remaining) % blockSize ≠ 0 then none
      else if offset < p.reached then none
      else if 1 <<< 64 ≤ offset + length then none
      else if p.remaining < length then none
      else some ⟨offset + length, p.remaining - length⟩
    | _, _ => none

/-- The first `n` descriptors of a byte sequence. -/
def descriptors (bytes : ByteArray) (n : Nat) : List ByteArray :=
  (List.range n).map fun i => bytes.extract (24 * i) (24 * i + 24)

/-- Check the parts of the further descriptor blocks from a position on, at most `steps`
blocks. Gives the position after the last of them. -/
def addBlocks? (data : ByteArray) (size : Nat) :
    (steps : Nat) → (pos : Nat) → Progress → Option (Nat × Progress)
  | 0, _, _ => none
  | steps + 1, pos, p =>
    if data.size < pos + blockSize then none
    else
      let block := data.extract pos (pos + blockSize)
      match (descriptors block 21).foldlM (addPart? size) p with
      | none => none
      | some p =>
        if block[504]? = some 1 then addBlocks? data size steps (pos + blockSize) p
        else some (pos + blockSize, p)

/-- Check the header of a sparse member whose parts take `size` bytes, in the data after
the header at `pos`. Gives the number of bytes that further descriptor blocks take. -/
def check? (h : Header) (data : ByteArray) (size pos : Nat) : Option Nat :=
  if !h.isGnu then none
  else
    match (descriptors (h.field 386 96) 4).foldlM (addPart? size) ⟨0, size⟩ with
    | none => none
    | some p =>
      let further := if h.block[482]? = some 1 then
          addBlocks? data size (data.size / blockSize + 1) pos p
        else some (pos, p)
      match further, Header.octal? (h.field 483 12) with
      | some (after, p), some real =>
        if p.reached = real ∧ p.remaining = 0 then some (after - pos) else none
      | _, _ => none

end CallCensus.Archive.Sparse
