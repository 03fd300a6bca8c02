import CallCensus.Unicode.Classes

/-!
Texts as lists of characters: white space at the ends, lines and length in bytes.
-/

namespace CallCensus

/-- A text. -/
abbrev Text := List Char

namespace Text

/-- A text without the white space at its start. -/
def trimStart (s : Text) : Text :=
  s.dropWhile Unicode.isBlank

/-- A text without the white space at its end. -/
def trimEnd (s : Text) : Text :=
  (s.reverse.dropWhile Unicode.isBlank).reverse

/-- A text without the white space at both ends. -/
def trim (s : Text) : Text :=
  trimEnd (trimStart s)

/-- The text after `start`, when it begins with `start`. -/
def after? : (start s : Text) → Option Text
  | [], s => some s
  | _ :: _, [] => none
  | a :: start, c :: s => if a = c then after? start s else none

/-- The lines after those in `done`, where `line` is the part of the current line
already read; both are in reverse order. -/
def linesOnto (done : List Text) (line : Text) : Text → List Text
  | [] => if line.isEmpty then done.reverse else (line.reverse :: done).reverse
  | c :: rest =>
    if c = '\n' then
      match line with
      | '\r' :: line => linesOnto (line.reverse :: done) [] rest
      | line => linesOnto (line.reverse :: done) [] rest
    else linesOnto done (c :: line) rest

/-- The lines of a text. A line break is a line feed, with a carriage return before
it if there is one, and belongs to no line; a break at the very end starts no
further line. -/
def lines (s : Text) : List Text :=
  linesOnto [] [] s

/-- The length of a text in bytes of UTF-8. -/
def utf8Length (s : Text) : Nat :=
  s.foldl (fun n c => n + c.utf8Size) 0

end Text

/-- A name without the white space at both ends. -/
def trimmed (s : String) : String :=
  String.ofList (Text.trim s.toList)

end CallCensus
