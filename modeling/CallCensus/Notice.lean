/-!
Notices: what a run tells its user while it works.
-/

namespace CallCensus

/-- A message to the user. -/
inductive Notice where
  /-- Something about the normal course of a run. -/
  | info (message : String)
  /-- Something that the user may want to put right. -/
  | warning (message : String)
deriving DecidableEq, Repr

end CallCensus
