import CallCensus.Text.Basic

/-!
What travels through a census: source files on their way to being counted, and the
counts that come of them.
-/

namespace CallCensus

/-- A file of an archive. -/
structure SourceFile where
  /-- The name of the archive. -/
  archive : String
  /-- The path of the file within the archive. -/
  path : String
  content : Text
deriving DecidableEq

/-- The number of call sites of one operator in one file. -/
structure CallCount where
  /-- The name of the archive. -/
  archive : String
  /-- The path of the file within the archive. -/
  file : String
  operator : String
  total : UInt64
deriving DecidableEq

/-- The count of an operator in a source file. -/
def SourceFile.counted (f : SourceFile) (operator : String) (total : UInt64) : CallCount :=
  ⟨f.archive, f.path, operator, total⟩

end CallCensus
