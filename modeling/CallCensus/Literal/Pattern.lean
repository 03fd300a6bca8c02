import CallCensus.Literal.Scan
import CallCensus.Pattern.Search

/-!
String literals, found by a backtracking pattern: a quote, as few characters as
possible, and the same quote again. A backslash is taken together with the character
after it and never given back, so an escaped quote closes nothing; no character is a
line feed.
-/

namespace CallCensus.Literal

open Pattern

/-- A character of a literal, with a backslash before it if there is one. -/
def character : Pattern :=
  seq (commit (optional (char '\\'))) (noneOf ['\n'])

/-- A literal with its quotes. -/
def pattern : Pattern :=
  sequence [group 1 (one isQuote), few character, same 1]

/-- What stays of a segment: characters outside matches. -/
def segmentKept : Segment → Text
  | .plain c => [c]
  | .hit _ => []

/-- A source text without its literals; `none` when the search gives up. -/
def stripByPattern? (limit : Nat) (s : Text) : Option Text :=
  (segments? pattern limit s).map fun segments => segments.flatMap segmentKept

end CallCensus.Literal
