import CallCensus.Archive.Fault
import CallCensus.FileTree
import CallCensus.Json.Token

/-!
What can go wrong in a census.

* `ConfigProblem`: settings that no run can be made with;
* `Cause`: a failure with a reason of its own;
* `Failure`: how a run ends when it fails: with a cause, with a worker that panicked, or
  with a stage whose consumer is gone. The last is only ever the echo of another failure.

Each has a `message`, and where a message ends with the reason of something else, its
`statement` is the part before.
-/

namespace CallCensus

/-- Settings that no run can be made with. -/
inductive ConfigProblem where
  | noWorkers
  | noCounterWorkers
  | emptyDistribution
  /-- No operator is left for a distribution. -/
  | noOperators (distribution : String)
deriving DecidableEq, Repr

/-- A problem with the settings in words. -/
def ConfigProblem.message : ConfigProblem → String
  | noWorkers => "workers must be at least 1"
  | noCounterWorkers => "counter workers must be at least 1"
  | emptyDistribution => "distribution is empty"
  | noOperators distribution => "operator list for '" ++ distribution ++ "' is empty"

/-- A failure with a reason of its own. -/
inductive Cause where
  /-- The directory of the archives cannot be read. -/
  | archiveDirectory (path : String) (why : FileProblem)
  /-- An archive cannot be opened. -/
  | archiveOpen (path : String) (why : FileProblem)
  /-- An archive cannot be read on. -/
  | archiveRead (archive : String) (why : Archive.Fault)
  /-- The contents of a file in an archive cannot be read. -/
  | entryRead (archive file : String) (why : Archive.Fault)
  /-- The operator lists cannot be read. -/
  | operatorsRead (path : String) (why : FileProblem)
  /-- The list of sampled files cannot be read. -/
  | sampleRead (path : String) (why : FileProblem)
  /-- No operator list belongs to a distribution. -/
  | operatorsNotFound (distribution : String)
  /-- A JSON text is wrong. -/
  | json (flaw : Json.Flaw)
  /-- A count belongs to no cell of the result table. -/
  | missingCell (archive operator : String)
  /-- The settings are wrong. -/
  | config (problem : ConfigProblem)
deriving DecidableEq, Repr

namespace Cause

/-- What failed, without the reason. -/
def statement : Cause → String
  | archiveDirectory path _ => "Failed to read archive directory '" ++ path ++ "'"
  | archiveOpen path _ => "Failed to open archive '" ++ path ++ "'"
  | archiveRead archive _ => "Failed to read archive '" ++ archive ++ "'"
  | entryRead archive file _ => "Failed to read '" ++ file ++ "' from archive '" ++ archive ++ "'"
  | operatorsRead path _ => "Failed to read operator list '" ++ path ++ "'"
  | sampleRead path _ => "Failed to read audit sample '" ++ path ++ "'"
  | operatorsNotFound distribution =>
    "No operator list matching distribution '" ++ distribution ++ "'"
  | json _ => "JSON error"
  | missingCell archive operator =>
    "No result cell for archive '" ++ archive ++ "' and operator '" ++ operator ++ "'"
  | config problem => "Invalid configuration: " ++ problem.message

/-- The reason, where the statement does not hold it. -/
def reason? : Cause → Option String
  | archiveDirectory _ why => some why.message
  | archiveOpen _ why => some why.message
  | archiveRead _ why => some why.message
  | entryRead _ _ why => some why.message
  | operatorsRead _ why => some why.message
  | sampleRead _ why => some why.message
  | json flaw => some flaw.message
  | _ => none

/-- A cause in words. -/
def message (c : Cause) : String :=
  match c.reason? with
  | none => c.statement
  | some reason => c.statement ++ ": " ++ reason

end Cause

/-- How a run ends when it fails. -/
inductive Failure (ε : Type) where
  /-- Something failed for a reason of its own. -/
  | cause (e : ε)
  /-- A worker of a stage panicked. -/
  | panicked (stage : String)
  /-- A stage could not deliver because its consumer was gone. -/
  | disconnected (stage : String)
deriving DecidableEq, Repr

namespace Failure

variable {ε : Type}

/-- Whether a failure is only the echo of another one. -/
def isEcho : Failure ε → Bool
  | disconnected _ => true
  | _ => false

/-- A failure in words, given the words of its cause. -/
def message (ofCause : ε → String) : Failure ε → String
  | cause e => ofCause e
  | panicked stage => "A worker of stage '" ++ stage ++ "' panicked"
  | disconnected stage => "Stage '" ++ stage ++ "' lost its downstream consumer"

end Failure

end CallCensus
