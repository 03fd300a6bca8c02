import CallCensus.Literal.Pattern

/-!
Removing string literals from a source text: by the pattern, and by the scan where
the pattern gives up.
-/

namespace CallCensus.Literal

/-- A source text without its literals, where a search for the pattern may
go back `limit` times. -/
def strip (limit : Nat) (s : Text) : Text :=
  (stripByPattern? limit s).getD (stripByScan s)

end CallCensus.Literal
