import CallCensus.Comment.Pattern
import CallCensus.Comment.Scan

/-!
Removing comments from a source text: by the pattern, and by the scan where the
pattern gives up. The two differ in the blank lines that follow comments, which only
the pattern takes along.
-/

namespace CallCensus.Comment

/-- A source text without its comments, where a search for the pattern may
go back `limit` times. -/
def strip (limit : Nat) (s : Text) : Text :=
  (stripByPattern? limit s).getD (stripByScan s)

end CallCensus.Comment
