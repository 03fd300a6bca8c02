import CallCensus.Text.Basic
import CallCensus.Text.Pieces

/-!
Comments, found by reading a source text once from left to right.

Three tokens matter. A quoted span is opened by a double quote or an apostrophe and
closed by the same character; it may run over several lines, and a backslash
escapes the character after it. A block comment runs from `/*` to the next `*/`. A
line comment runs from `//` to a line break that no backslash escapes. A quote or a
`/*` that is never closed stands for itself.

* `closing?`, `blockEnd?`, `lineEnd`: where the three tokens end;
* `Comment.pieces`: the tokens of a text, and the characters between them;
* `Comment.stripByScan`: every comment becomes one space.
-/

namespace CallCensus.Comment

/-- The number of characters through the quote that closes a quoted span, counted
from after its opening quote; `n` of them are already counted. -/
def closing? (quote : Char) : (s : Text) → (n : Nat) → Option Nat
  | [], _ => none
  | '\\' :: [], _ => none
  | '\\' :: _ :: rest, n => closing? quote rest (n + 2)
  | c :: rest, n => if c = quote then some (n + 1) else closing? quote rest (n + 1)

/-- A backslash is read together with the character after it. -/
theorem closing?_escape {quote : Char} {rest : Text} {n : Nat} (c : Char) :
    closing? quote ('\\' :: c :: rest) n = closing? quote rest (n + 2) := by
  rw [closing?]

/-- The number of characters through the `*/` that closes a block comment, counted
from after its `/*`; `n` of them are already counted. -/
def blockEnd? : (s : Text) → (n : Nat) → Option Nat
  | [], _ => none
  | '*' :: '/' :: _, n => some (n + 2)
  | _ :: rest, n => blockEnd? rest (n + 1)

/-- The number of characters of a line comment after its `//`; `n` of them are
already counted. The line break that ends a comment is not part of it, and a
backslash right before a line break takes the break into the comment. -/
def lineEnd : (s : Text) → (n : Nat) → Nat
  | [], n => n
  | '\\' :: '\r' :: '\n' :: rest, n => lineEnd rest (n + 3)
  | '\\' :: '\n' :: rest, n => lineEnd rest (n + 2)
  | '\n' :: _, n => n
  | '\r' :: '\n' :: _, n => n
  | _ :: rest, n => lineEnd rest (n + 1)

/-- A part of a source text, as far as comments are concerned. -/
inductive Piece where
  /-- A character outside quoted spans and comments. -/
  | code (c : Char)
  /-- A quoted span with its quotes. -/
  | quoted (s : Text)
  /-- A comment with its markers. -/
  | comment (s : Text)
deriving DecidableEq

namespace Piece

/-- The text of a piece. -/
def source : Piece → Text
  | code c => [c]
  | quoted s => s
  | comment s => s

/-- What stays of a piece: all of it, and one space for a comment. -/
def kept : Piece → Text
  | code c => [c]
  | quoted s => s
  | comment _ => [' ']

end Piece

/-- The piece that starts at `c`, and how many characters it takes after `c`. -/
def pieceAt (c : Char) (rest : Text) : Piece × Nat :=
  if c = '"' ∨ c = '\'' then
    match closing? c rest 0 with
    | some n => (.quoted (c :: rest.take n), n)
    | none => (.code c, 0)
  else if c = '/' then
    match rest with
    | '*' :: inner =>
      match blockEnd? inner 0 with
      | some n => (.comment (c :: rest.take (n + 1)), n + 1)
      | none => (.code c, 0)
    | '/' :: inner =>
      let n := lineEnd inner 0
      (.comment (c :: rest.take (n + 1)), n + 1)
    | _ => (.code c, 0)
  else (.code c, 0)

/-- The pieces of a source text. -/
def pieces (s : Text) : List Piece :=
  Text.pieces pieceAt s

theorem source_pieceAt (c : Char) (rest : Text) :
    (pieceAt c rest).1.source = c :: rest.take (pieceAt c rest).2 := by
  simp only [pieceAt]
  repeat' split
  all_goals simp [Piece.source]

/-- The pieces of a source text make up the text. -/
theorem source_pieces (s : Text) : (pieces s).flatMap Piece.source = s :=
  Text.flatMap_pieces source_pieceAt s

/-- A source text with every comment replaced by one space. -/
def stripByScan (s : Text) : Text :=
  (pieces s).flatMap Piece.kept

end CallCensus.Comment
