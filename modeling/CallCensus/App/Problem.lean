import CallCensus.Error

/-!
What can go wrong in a run of the program, besides the census itself: its files cannot be
read or written, or its configuration is wrong.
-/

namespace CallCensus.App

/-- What is wrong with a configuration. -/
inductive ConfigProblem where
  | emptyDistribution
  | noLanguages
  | noWorkers
  | noQueueCapacity
  /-- No extension is known for any of the languages. -/
  | noExtensions (languages : List String)
deriving DecidableEq, Repr

/-- A problem with a configuration in words. -/
def ConfigProblem.message : ConfigProblem → String
  | emptyDistribution => "distribution must not be empty"
  | noLanguages => "fileExtensions must name at least one language"
  | noWorkers => "worker counts must be at least 1"
  | noQueueCapacity => "queueCapacity must be at least 1"
  | noExtensions languages => "no file extensions known for " ++ ", ".intercalate languages

/-- Why a run of the program fails. -/
inductive Problem where
  /-- The census fails. -/
  | census (failure : Failure Cause)
  /-- A file cannot be read. -/
  | read (path : String) (why : FileProblem)
  /-- A file or directory cannot be written. -/
  | write (path : String) (why : FileProblem)
  /-- A file does not hold the JSON that it should. -/
  | parse (path : String) (flaw : Json.Flaw)
  /-- The configuration is wrong. -/
  | config (problem : ConfigProblem)
deriving DecidableEq, Repr

namespace Problem

/-- What failed, without the reason. -/
def statement : Problem → String
  | census (.cause c) => c.statement
  | census failure => failure.message Cause.message
  | read path _ => "Failed to read '" ++ path ++ "'"
  | write path _ => "Failed to write '" ++ path ++ "'"
  | parse path _ => "Invalid JSON in '" ++ path ++ "'"
  | config problem => "Invalid configuration: " ++ problem.message

/-- The reason, where the statement does not hold it. -/
def reason? : Problem → Option String
  | census (.cause c) => c.reason?
  | census _ => none
  | read _ why => some why.message
  | write _ why => some why.message
  | parse _ flaw => some flaw.message
  | config _ => none

/-- A problem in words. -/
def message (p : Problem) : String :=
  match p.reason? with
  | none => p.statement
  | some reason => p.statement ++ ": " ++ reason

end Problem

end CallCensus.App
