import CallCensus.Text.Basic

/-!
The tokens of JSON: words, strings and numbers, read from the front of a text.

A text can be wrong in three ways. It can be malformed, it can end too early, and it
can be well formed so far but hold something else than was asked for. A text is read
once from left to right, and the first fault met decides which of them is reported.

* `stringBody`, `number`: a string with its escapes, a number with its range;
* `skipString`, `skipNumber`: the same tokens where nobody asks for their value. They
  are checked less strictly: surrogates need no partner, and no number is too large.
-/

namespace CallCensus.Json

/-- What is wrong with a JSON text. -/
inductive Flaw where
  /-- The text breaks the rules of JSON. -/
  | malformed
  /-- The text ends too early. -/
  | truncated
  /-- The text is well formed so far, but holds something else than was asked for. -/
  | mismatch
deriving DecidableEq, Repr

/-- A flaw in words. -/
def Flaw.message : Flaw → String
  | malformed => "malformed JSON"
  | truncated => "unexpected end of JSON"
  | mismatch => "unexpected JSON value"

/-- A reader takes a value from the front of a text and leaves the rest. -/
abbrev Reader (α : Type) := Text → Except Flaw (α × Text)

/-- The characters that may stand between tokens. -/
def isBlank (c : Char) : Bool :=
  c == ' ' || c == '\n' || c == '\t' || c == '\r'

/-- A text without the blanks at its start. -/
def skipBlank (s : Text) : Text :=
  s.dropWhile isBlank

/-- Read the letters of a word. -/
def word : (letters : Text) → Reader Unit
  | [], s => .ok ((), s)
  | _ :: _, [] => .error .truncated
  | a :: letters, c :: s => if a = c then word letters s else .error .malformed

/-- The value of a hexadecimal digit. -/
def hexDigit? (c : Char) : Option Nat :=
  if '0' ≤ c ∧ c ≤ '9' then some (c.toNat - '0'.toNat)
  else if 'a' ≤ c ∧ c ≤ 'f' then some (c.toNat - 'a'.toNat + 10)
  else if 'A' ≤ c ∧ c ≤ 'F' then some (c.toNat - 'A'.toNat + 10)
  else none

/-- The number that hexadecimal digits write. -/
def hexValue? (digits : Text) : Option Nat :=
  digits.foldlM (fun n c => (hexDigit? c).map fun d => n * 16 + d) 0

/-- Read the four digits of a numeric escape, which take four bytes. -/
def hexEscape (s : Text) : Except Flaw (Nat × Text) :=
  if Text.utf8Length (s.take 4) < 4 then .error .truncated
  else
    match hexValue? (s.take 4) with
    | some n => .ok (n, s.drop 4)
    | none => .error .malformed

/-- Whether a code unit is the first of a surrogate pair. -/
def isHighSurrogate (n : Nat) : Bool :=
  0xd800 ≤ n && n ≤ 0xdbff

/-- Whether a code unit is the second of a surrogate pair. -/
def isLowSurrogate (n : Nat) : Bool :=
  0xdc00 ≤ n && n ≤ 0xdfff

/-- Read a numeric escape after its `\u`, with the second half of a surrogate pair if
it starts one. -/
def unicodeEscape (s : Text) : Except Flaw (Char × Text) :=
  match hexEscape s with
  | .error e => .error e
  | .ok (n, s) =>
    if isLowSurrogate n then .error .malformed
    else if isHighSurrogate n then
      match word ['\\', 'u'] s with
      | .error e => .error e
      | .ok ((), s) =>
        match hexEscape s with
        | .error e => .error e
        | .ok (m, s) =>
          if isLowSurrogate m then
            .ok (Char.ofNat ((n - 0xd800) * 0x400 + (m - 0xdc00) + 0x10000), s)
          else .error .malformed
    else .ok (Char.ofNat n, s)

/-- The character that a single letter stands for after a backslash. -/
def simpleEscape? (c : Char) : Option Char :=
  if c = '"' ∨ c = '\\' ∨ c = '/' then some c
  else if c = 'b' then some '\x08'
  else if c = 'f' then some '\x0c'
  else if c = 'n' then some '\n'
  else if c = 'r' then some '\r'
  else if c = 't' then some '\t'
  else none

/-- Read an escape after its backslash. -/
def escape (s : Text) : Except Flaw (Char × Text) :=
  match s with
  | [] => .error .truncated
  | 'u' :: s => unicodeEscape s
  | c :: s =>
    match simpleEscape? c with
    | some d => .ok (d, s)
    | none => .error .malformed

/-- Skip an escape after its backslash. -/
def skipEscape (s : Text) : Except Flaw Text :=
  match s with
  | [] => .error .truncated
  | 'u' :: s => (hexEscape s).map (·.2)
  | c :: s => if (simpleEscape? c).isSome then .ok s else .error .malformed

/-- Read a string after its opening quote. `done` holds the characters already read, in
reverse order; at most `steps` characters and escapes are read. -/
def stringOnto (done : List Char) : (steps : Nat) → Reader String
  | 0, _ => .error .truncated
  | _ + 1, [] => .error .truncated
  | _ + 1, '"' :: s => .ok (String.ofList done.reverse, s)
  | steps + 1, '\\' :: s =>
    match escape s with
    | .error e => .error e
    | .ok (c, s) => stringOnto (c :: done) steps s
  | steps + 1, c :: s => if c.toNat < 0x20 then .error .malformed else stringOnto (c :: done) steps s

/-- Read a string after its opening quote. Control characters must be escaped. -/
def stringBody : Reader String := fun s =>
  stringOnto [] (s.length + 1) s

/-- Skip a string after its opening quote, in at most `steps` characters and escapes. -/
def skipStringWithin : (steps : Nat) → Text → Except Flaw Text
  | 0, _ => .error .truncated
  | _ + 1, [] => .error .truncated
  | _ + 1, '"' :: s => .ok s
  | steps + 1, '\\' :: s =>
    match skipEscape s with
    | .error e => .error e
    | .ok s => skipStringWithin steps s
  | steps + 1, c :: s => if c.toNat < 0x20 then .error .malformed else skipStringWithin steps s

/-- Skip a string after its opening quote. -/
def skipString (s : Text) : Except Flaw Text :=
  skipStringWithin (s.length + 1) s

/-- The decimal digits at the start of a text, and the rest. -/
def digits (s : Text) : Text × Text :=
  s.span Char.isDigit

/-- The number that decimal digits write. -/
def decimalValue (ds : Text) : Nat :=
  ds.foldl (fun n c => n * 10 + (c.toNat - '0'.toNat)) 0

/-- The parts of a number: the digits before and after its point, and its exponent. -/
structure Numeral where
  negative : Bool
  whole : Text
  fraction : Option Text
  exponent : Option (Bool × Text)

/-- The fault of a number that goes on with no digit where it must. -/
def missingDigit (s : Text) : Flaw :=
  if s.isEmpty then .truncated else .malformed

/-- Read the digits before the point of a number: no zero stands before another
digit. -/
def wholePart (s : Text) : Except Flaw (Text × Text) :=
  match digits s with
  | ([], s) => .error (missingDigit s)
  | ('0' :: _ :: _, _) => .error .malformed
  | (ds, s) => .ok (ds, s)

/-- Read the point of a number and the digits after it, if there is a point. -/
def fractionPart (s : Text) : Except Flaw (Option Text × Text) :=
  match s with
  | '.' :: s =>
    match digits s with
    | ([], s) => .error (missingDigit s)
    | (ds, s) => .ok (some ds, s)
  | s => .ok (none, s)

/-- The sign of an exponent, whether it is negative, and the rest. -/
def exponentSign (s : Text) : Bool × Text :=
  match s with
  | '+' :: s => (false, s)
  | '-' :: s => (true, s)
  | s => (false, s)

/-- Read the exponent of a number, if there is one. -/
def exponentPart (s : Text) : Except Flaw (Option (Bool × Text) × Text) :=
  match s with
  | c :: s' =>
    if c = 'e' ∨ c = 'E' then
      match exponentSign s' with
      | (sign, s) =>
        match digits s with
        | ([], s) => .error (missingDigit s)
        | (ds, s) => .ok (some (sign, ds), s)
    else .ok (none, s)
  | [] => .ok (none, [])

/-- Read the parts of a number. -/
def numeral (s : Text) : Except Flaw (Numeral × Text) :=
  let (negative, s) := match s with
    | '-' :: s => (true, s)
    | s => (false, s)
  match wholePart s with
  | .error e => .error e
  | .ok (whole, s) =>
    match fractionPart s with
    | .error e => .error e
    | .ok (fraction, s) =>
      match exponentPart s with
      | .error e => .error e
      | .ok (exponent, s) => .ok (⟨negative, whole, fraction, exponent⟩, s)

namespace Numeral

/-- The largest number of 64 bits. -/
def maxCount : Nat := 1 <<< 64 - 1

/-- The leading digits of a number as far as they fit into 64 bits, and the number of
further digits. -/
def significand (n : Nat) : Text → Nat × Nat
  | [] => (n, 0)
  | c :: rest =>
    let m := n * 10 + (c.toNat - '0'.toNat)
    if maxCount < m then (n, rest.length + 1) else significand m rest

/-- Whether a number is within the range of double precision. Its significant digits
are those that fit into 64 bits; a number without a significant digit is zero. -/
def inRange (x : Numeral) : Bool :=
  let fraction := x.fraction.getD []
  let (m, dropped) := significand 0 (x.whole ++ fraction)
  let kept := (x.whole ++ fraction).length - dropped
  let shift : Int := (x.whole.length : Int) - kept
  let exponent : Int := match x.exponent with
    | none => 0
    | some (true, ds) => -(decimalValue ds : Int)
    | some (false, ds) => decimalValue ds
  let scale := exponent + shift
  if m = 0 then true
  else if scale ≤ 0 then true
  else if 308 < scale then false
  else !(Float.ofNat m * Float.ofScientific 1 false scale.toNat).isInf

/-- The value of a number that is written as a count: digits alone, in 64 bits. -/
def count? (x : Numeral) : Option Nat :=
  if x.negative ∨ x.fraction.isSome ∨ x.exponent.isSome then none
  else
    let n := decimalValue x.whole
    if maxCount < n then none else some n

end Numeral

/-- Read a number: its value when it is a count, and `none` for any other number. A
number beyond the range of double precision is malformed. -/
def number (s : Text) : Except Flaw (Option Nat × Text) :=
  match numeral s with
  | .error e => .error e
  | .ok (x, s) => if x.inRange then .ok (x.count?, s) else .error .malformed

/-- Skip a number. Where a digit is missing the number is malformed, at the end of the
text as well. -/
def skipNumber (s : Text) : Except Flaw Text :=
  match numeral s with
  | .error _ => .error .malformed
  | .ok (_, s) => .ok s

end CallCensus.Json
