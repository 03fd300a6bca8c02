import CallCensus.CallSite.Scan
import CallCensus.Pattern.Search

/-!
Call sites of an operator, found by a backtracking pattern: the operator's name, not
preceded by a word character, then any white space and an opening bracket.
-/

namespace CallCensus.CallSite

open Pattern

/-- A call site of `operator`. -/
def pattern (operator : Text) : Pattern :=
  sequence [notAfter Unicode.isWord, exactly operator, many (one Unicode.isBlank),
    one isOpening]

/-- Whether a segment is a match. -/
def isHit : Segment → Bool
  | .plain _ => false
  | .hit _ => true

/-- The number of call sites of `operator` in a text; `none` when the search gives
up. -/
def countByPattern? (limit : Nat) (operator s : Text) : Option Nat :=
  (segments? (pattern operator) limit s).map fun segments => segments.countP isHit

end CallCensus.CallSite
