import CallCensus.CallSite.Pattern

/-!
Counting the call sites of an operator: by the pattern, and by the scan where the
pattern gives up.
-/

namespace CallCensus.CallSite

/-- The number of call sites of `operator` in a text, where a search for the pattern may go
back `limit` times. -/
def count (limit : Nat) (operator s : Text) : Nat :=
  (countByPattern? limit operator s).getD (countByScan operator s)

end CallCensus.CallSite
