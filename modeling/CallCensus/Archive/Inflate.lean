import CallCensus.Archive.Huffman

/-!
Decompression of deflated data.

The data is a sequence of blocks. A block is stored as it is, or it is a sequence of
symbols that stand for single bytes and for repetitions of what came before, coded with
a fixed code or with codes that the block starts with.

When the data is cut off, everything decoded up to there counts. When it is malformed,
the output that was decoded together with the malformed part is lost: data goes in and
comes out in chunks of `chunkSize` bytes, and a chunk that fails gives nothing.

* `Inflater.inflate`: the output of deflated data, and the position after it, or else
  the output that counts before the data breaks off.
-/

namespace CallCensus.Archive

/-- The size of the chunks in which data goes in and comes out. -/
def chunkSize : Nat := 32768

/-- A decompression under way. -/
structure Inflater where
  /-- The compressed data. -/
  data : ByteArray
  /-- The position in the data, in bits. -/
  pos : Nat
  /-- The output. -/
  out : ByteArray
  /-- The number of the chunk of data that was read last. -/
  chunk : Nat
  /-- The size of the output when that chunk was begun. -/
  outAtChunk : Nat

namespace Inflater

/-- A result, or the output that counts when there is none. -/
abbrev Result (α : Type) := Except ByteArray α

/-- The same decompression further on in the data. -/
def moveTo (s : Inflater) (pos : Nat) : Inflater :=
  let chunk := (pos - 1) / (8 * chunkSize)
  if s.chunk < chunk then { s with pos := pos, chunk := chunk, outAtChunk := s.out.size }
  else { s with pos := pos }

/-- The output that counts when the data is cut off. -/
def cutOff {α : Type} (s : Inflater) : Result α :=
  .error s.out

/-- The output that counts when the data is malformed. -/
def malformed {α : Type} (s : Inflater) : Result α :=
  .error (s.out.extract 0 (max (chunkSize * ((s.out.size - 1) / chunkSize)) s.outAtChunk))

/-- The number that the next `n` bits write. -/
def takeBits (s : Inflater) (n : Nat) : Result (Nat × Inflater) :=
  match bits? s.data n s.pos with
  | none => s.cutOff
  | some v => .ok (v, s.moveTo (s.pos + n))

/-- The next symbol of a code. -/
def takeSymbol (s : Inflater) (c : Code) : Result (Nat × Inflater) :=
  match c.decode s.data s.pos with
  | .error .truncated => s.cutOff
  | .error .undefined => (s.moveTo (s.pos + 1)).malformed
  | .ok (symbol, pos) => .ok (symbol, s.moveTo pos)

/-- The same decompression with one more byte of output. -/
def emit (s : Inflater) (b : UInt8) : Inflater :=
  { s with out := s.out.push b }

/-- Repeat what was put out `distance` bytes ago, byte by byte. What lies before the
start of the output counts as zero. -/
def copyBack (distance : Nat) : (length : Nat) → ByteArray → ByteArray
  | 0, out => out
  | length + 1, out =>
    let b := if distance ≤ out.size then out[out.size - distance]?.getD 0 else 0
    copyBack distance length (out.push b)

/-- The least length and the number of extra bits for each of the symbols from 257. -/
def lengthTable : List (Nat × Nat) :=
  [(3, 0), (4, 0), (5, 0), (6, 0), (7, 0), (8, 0), (9, 0), (10, 0), (11, 1), (13, 1), (15, 1),
    (17, 1), (19, 2), (23, 2), (27, 2), (31, 2), (35, 3), (43, 3), (51, 3), (59, 3), (67, 4),
    (83, 4), (99, 4), (115, 4), (131, 5), (163, 5), (195, 5), (227, 5), (258, 0)]

/-- The least distance and the number of extra bits for each of the distance symbols. -/
def distanceTable : List (Nat × Nat) :=
  [(1, 0), (2, 0), (3, 0), (4, 0), (5, 1), (7, 1), (9, 2), (13, 2), (17, 3), (25, 3), (33, 4),
    (49, 4), (65, 5), (97, 5), (129, 6), (193, 6), (257, 7), (385, 7), (513, 8), (769, 8),
    (1025, 9), (1537, 9), (2049, 10), (3073, 10), (4097, 11), (6145, 11), (8193, 12),
    (12289, 12), (16385, 13), (24577, 13)]

/-- The value of a symbol that stands for a range of values: its extra bits follow. -/
def takeValue (s : Inflater) (table : List (Nat × Nat)) (symbol : Nat) : Result (Nat × Inflater) :=
  match table[symbol]? with
  | none => s.malformed
  | some (least, extra) => (s.takeBits extra).map fun r => (least + r.1, r.2)

/-- Read the symbols of a block to its end symbol, at most `steps` of them. -/
def symbols (lengths distances : Code) : (steps : Nat) → Inflater → Result Inflater
  | 0, s => s.cutOff
  | steps + 1, s =>
    match s.takeSymbol lengths with
    | .error e => .error e
    | .ok (symbol, s) =>
      if symbol < 256 then symbols lengths distances steps (s.emit (UInt8.ofNat symbol))
      else if symbol = 256 then .ok s
      else
        match s.takeValue lengthTable (symbol - 257) with
        | .error e => .error e
        | .ok (length, s) =>
          match s.takeSymbol distances with
          | .error e => .error e
          | .ok (symbol, s) =>
            match s.takeValue distanceTable symbol with
            | .error e => .error e
            | .ok (distance, s) =>
              symbols lengths distances steps { s with out := copyBack distance length s.out }

/-- Copy `n` stored bytes. -/
def stored : (n : Nat) → Inflater → Result Inflater
  | 0, s => .ok s
  | n + 1, s =>
    match s.takeBits 8 with
    | .error e => .error e
    | .ok (b, s) => stored n (s.emit (UInt8.ofNat b))

/-- Read a stored block, which starts at a byte boundary with its length and the
complement of its length. -/
def storedBlock (s : Inflater) : Result Inflater :=
  match (s.moveTo ((s.pos + 7) / 8 * 8)).takeBits 16 with
  | .error e => .error e
  | .ok (length, s) =>
    match s.takeBits 16 with
    | .error e => .error e
    | .ok (complement, s) =>
      if length + complement = 0xffff then stored length s else s.malformed

/-- The lengths of the fixed code for literals and lengths. -/
def fixedLengths : List Nat :=
  List.replicate 144 8 ++ List.replicate 112 9 ++ List.replicate 24 7 ++ List.replicate 8 8

/-- The lengths of the fixed code for distances. -/
def fixedDistances : List Nat :=
  List.replicate 32 5

/-- The order in which the lengths of the code for code lengths are given. -/
def lengthOrder : List Nat :=
  [16, 17, 18, 0, 8, 7, 9, 6, 10, 5, 11, 4, 12, 3, 13, 2, 14, 1, 15]

/-- Read `n` lengths of three bits each, after those in `done`, which are in reverse
order. -/
def takeShortLengths (done : List Nat) : (n : Nat) → Inflater → Result (List Nat × Inflater)
  | 0, s => .ok (done.reverse, s)
  | n + 1, s =>
    match s.takeBits 3 with
    | .error e => .error e
    | .ok (length, s) => takeShortLengths (length :: done) n s

/-- The lengths of the code for code lengths, by symbol. -/
def orderedLengths (given : List Nat) : List Nat :=
  (List.range 19).map fun symbol => ((lengthOrder.zip given).lookup symbol).getD 0

/-- Read code lengths until there are `total`, after those in `done`, which are in
reverse order, in at most `steps` symbols. Three symbols stand for repetitions. -/
def takeLengths (c : Code) (total : Nat) (done : List Nat) :
    (steps : Nat) → Inflater → Result (List Nat × Inflater)
  | 0, s => s.cutOff
  | steps + 1, s =>
    if done.length = total then .ok (done.reverse, s)
    else if total < done.length then s.malformed
    else
      match s.takeSymbol c with
      | .error e => .error e
      | .ok (symbol, s) =>
        if symbol < 16 then takeLengths c total (symbol :: done) steps s
        else
          let (value?, least, extra) :=
            if symbol = 16 then (done.head?, 3, 2)
            else if symbol = 17 then (some 0, 3, 3)
            else (some 0, 11, 7)
          match value? with
          | none => s.malformed
          | some value =>
            match s.takeBits extra with
            | .error e => .error e
            | .ok (n, s) =>
              takeLengths c total (List.replicate (least + n) value ++ done) steps s

/-- Read the codes that a block starts with: for literals and lengths, and for
distances. -/
def takeCodes (s : Inflater) : Result (Code × Code × Inflater) :=
  match s.takeBits 14 with
  | .error e => .error e
  | .ok (sizes, s) =>
    let literals := sizes % 32 + 257
    let distances := sizes / 32 % 32 + 1
    let given := sizes / 1024 + 4
    if 286 < literals ∨ 30 < distances then s.malformed
    else
      match takeShortLengths [] given s with
      | .error e => .error e
      | .ok (short, s) =>
        match Code.ofLengths? true (orderedLengths short) with
        | none => s.malformed
        | some c =>
          match takeLengths c (literals + distances) [] (literals + distances + 1) s with
          | .error e => .error e
          | .ok (lengths, s) =>
            match Code.ofLengths? false (lengths.take literals),
              Code.ofLengths? false (lengths.drop literals) with
            | some a, some b => .ok (a, b, s)
            | _, _ => s.malformed

/-- A block whose symbols are coded with a fixed code. -/
def fixedBlock (steps : Nat) (s : Inflater) : Result Inflater :=
  match Code.ofLengths? false fixedLengths, Code.ofLengths? false fixedDistances with
  | some a, some b => symbols a b steps s
  | _, _ => s.malformed

/-- A block that starts with its codes. -/
def dynamicBlock (steps : Nat) (s : Inflater) : Result Inflater :=
  match s.takeCodes with
  | .error e => .error e
  | .ok (a, b, s) => symbols a b steps s

/-- Read blocks up to the last one, at most `steps` of them, each of at most `size`
symbols. -/
def blocks (size : Nat) : (steps : Nat) → Inflater → Result Inflater
  | 0, s => s.cutOff
  | steps + 1, s =>
    match s.takeBits 3 with
    | .error e => .error e
    | .ok (head, s) =>
      let block := match head / 2 with
        | 0 => storedBlock s
        | 1 => fixedBlock size s
        | 2 => dynamicBlock size s
        | _ => s.malformed
      match block with
      | .error e => .error e
      | .ok s => if head % 2 = 1 then .ok s else blocks size steps s

/-- Decompress data from a byte position on. -/
def inflate (data : ByteArray) (start : Nat) : Result (ByteArray × Nat) :=
  let steps := 8 * data.size + 1
  (blocks steps steps ⟨data, 8 * start, .empty, (8 * start - 1) / (8 * chunkSize), 0⟩).map
    fun s => (s.out, (s.pos + 7) / 8)

end Inflater

end CallCensus.Archive
