import CallCensus.Archive.Bits

/-!
Canonical prefix codes.

A code is given by the length of every symbol's code word, zero for a symbol that does
not occur. Code words of one length are consecutive numbers in the order of their
symbols, and every length starts where the length before it ends, doubled.

* `Code.ofLengths?`: the code with given lengths;
* `Code.decode`: the symbol at a position in a bit sequence.
-/

namespace CallCensus.Archive

/-- The greatest length of a code word. -/
def maxCodeLength : Nat := 15

/-- A canonical prefix code. -/
structure Code where
  /-- How many code words have the lengths 1, 2, 3, … -/
  counts : List Nat
  /-- The symbols in the order of their code words, short ones first. -/
  symbols : Array Nat

namespace Code

/-- The symbols whose code words have a given length. -/
def symbolsOfLength (lengths : List Nat) (length : Nat) : List Nat :=
  (lengths.zipIdx.filter fun p => p.1 == length).map (·.2)

/-- How much of the space of code words is used, as a part of `2 ^ 16`. -/
def space (counts : List Nat) : Nat :=
  counts.foldl (fun total n => 2 * (total + n)) 0

/-- The code with the given lengths. Its words must use up the whole space of code
words, unless there is at most one symbol and `strict` is not set. -/
def ofLengths? (strict : Bool) (lengths : List Nat) : Option Code :=
  let bySize := (List.range maxCodeLength).map fun i => symbolsOfLength lengths (i + 1)
  let counts := bySize.map List.length
  let symbols := bySize.flatMap id
  if space counts ≠ 1 <<< (maxCodeLength + 1) ∧ (1 < symbols.length ∨ strict) then none
  else some ⟨counts, symbols.toArray⟩

/-- Why no symbol can be read. -/
inductive Stop where
  /-- The bits end within a code word. -/
  | truncated
  /-- No code word starts like the bits. -/
  | undefined

/-- Read a code word on, of which the bits `code` are known. Of the words one bit longer
the least is `first`, and `index` symbols have shorter words. -/
def decodeFrom (symbols : Array Nat) (data : ByteArray) :
    (counts : List Nat) → (code first index pos : Nat) → Except Stop (Nat × Nat)
  | [], _, _, _, _ => .error .undefined
  | n :: counts, code, first, index, pos =>
    match bit? data pos with
    | none => .error .truncated
    | some b =>
      let code := 2 * code + b
      if code < first + n then
        match symbols[index + (code - first)]? with
        | none => .error .undefined
        | some symbol => .ok (symbol, pos + 1)
      else if symbols.size ≤ index + n then .error .undefined
      else decodeFrom symbols data counts code (2 * (first + n)) (index + n) (pos + 1)

/-- The symbol at a position, and the position after it. -/
def decode (c : Code) (data : ByteArray) (pos : Nat) : Except Stop (Nat × Nat) :=
  decodeFrom c.symbols data c.counts 0 0 0 pos

end Code

end CallCensus.Archive
