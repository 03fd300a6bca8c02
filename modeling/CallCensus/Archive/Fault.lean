/-!
Why an archive cannot be read to its end.
-/

namespace CallCensus.Archive

/-- Why an archive cannot be read on. -/
inductive Fault where
  /-- The archive is a directory. -/
  | directory
  /-- The compressed data is malformed or breaks off. -/
  | compression
  /-- A header block is malformed or breaks off. -/
  | header
deriving DecidableEq, Repr

/-- A fault of an archive in words. -/
def Fault.message : Fault → String
  | directory => "is a directory"
  | compression => "corrupt compressed data"
  | header => "corrupt archive header"

end CallCensus.Archive
