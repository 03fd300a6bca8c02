import CallCensus.Text.Basic
import CallCensus.Text.Pieces

/-!
String literals, found by reading a source text once from left to right.

A literal is opened by a double quote, an apostrophe or a backquote and closed by the
same character on the same line. A backslash escapes the character after it, but not
a line feed. A quote that is not closed on its line stands for itself.

* `closing?`: where a literal ends;
* `Literal.pieces`: the literals of a text, and the characters between them;
* `Literal.stripByScan`: every literal is removed with its quotes.
-/

namespace CallCensus.Literal

/-- The backquote. -/
def backquote : Char := '\x60'

/-- The characters that open and close literals. -/
def isQuote (c : Char) : Bool :=
  c == '"' || c == '\'' || c == backquote

/-- The number of characters through the quote that closes a literal, counted from
after its opening quote; `n` of them are already counted. -/
def closing? (quote : Char) : (s : Text) → (n : Nat) → Option Nat
  | [], _ => none
  | c :: rest, n =>
    if c = quote then some (n + 1)
    else if c = '\n' then none
    else if c = '\\' then
      match rest with
      | [] => none
      | escaped :: rest => if escaped = '\n' then none else closing? quote rest (n + 2)
    else closing? quote rest (n + 1)

/-- The quote closes its literal. -/
theorem closing?_quote (quote : Char) (rest : Text) (n : Nat) :
    closing? quote (quote :: rest) n = some (n + 1) := by
  cases rest <;> simp [closing?]

/-- A part of a source text, as far as literals are concerned. -/
inductive Piece where
  /-- A character outside literals. -/
  | code (c : Char)
  /-- A literal with its quotes. -/
  | literal (s : Text)
deriving DecidableEq

namespace Piece

/-- The text of a piece. -/
def source : Piece → Text
  | code c => [c]
  | literal s => s

/-- What stays of a piece: a character outside literals, and nothing of a literal. -/
def kept : Piece → Text
  | code c => [c]
  | literal _ => []

end Piece

/-- The piece that starts at `c`, and how many characters it takes after `c`. -/
def pieceAt (c : Char) (rest : Text) : Piece × Nat :=
  if isQuote c then
    match closing? c rest 0 with
    | some n => (.literal (c :: rest.take n), n)
    | none => (.code c, 0)
  else (.code c, 0)

/-- The pieces of a source text. -/
def pieces (s : Text) : List Piece :=
  Text.pieces pieceAt s

theorem source_pieceAt (c : Char) (rest : Text) :
    (pieceAt c rest).1.source = c :: rest.take (pieceAt c rest).2 := by
  simp only [pieceAt]
  repeat' split
  all_goals simp [Piece.source]

/-- The pieces of a source text make up the text. -/
theorem source_pieces (s : Text) : (pieces s).flatMap Piece.source = s :=
  Text.flatMap_pieces source_pieceAt s

/-- A source text without its literals. -/
def stripByScan (s : Text) : Text :=
  (pieces s).flatMap Piece.kept

end CallCensus.Literal
