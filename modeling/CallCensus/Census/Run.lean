import CallCensus.Archive.Listing
import CallCensus.Census.Stages
import CallCensus.Operators
import CallCensus.Pipeline.Run

/-!
Making a census: the archives of a directory are listed, the table is laid out, and the
pipeline runs to its end.
-/

namespace CallCensus.Census

open Pipeline

/-- What a census gives. -/
structure Result where
  table : Table
  /-- How many counts were added up. -/
  messages : Nat
  audit : Option AuditReport

/-- How many files were counted: each gives one count per operator. -/
def Result.filesProcessed (r : Result) (operators : Operators) : Nat :=
  r.messages / max operators.names.length 1

/-- The archives that get a row: the known ones that are not excluded. -/
def rowNames (settings : Settings) (archives : List Archive.Reference) : List String :=
  match settings.known with
  | some names => names.filter fun name => !settings.excluded.contains name
  | none => archives.map (·.name)

/-- The notice at the start of a census. -/
def startNotice (settings : Settings) (operators : Operators) (archives : Nat) : Notice :=
  .info ("Mining " ++ toString archives ++ " archive(s) for " ++
    toString operators.names.length ++ " operator(s) of " ++ settings.distribution ++ " (" ++
    toString settings.workers ++ " workers per stage, " ++
    toString (settings.counterWorkersFor operators.names.length) ++ " per operator)")

/-- The pipeline of a census at its start. -/
def start (settings : Settings) (operators : Operators) (archives : List Archive.Reference) :
    State :=
  .start settings.workers (settings.counterWorkersFor operators.names.length)
    operators.names.length (startTallies settings.sample.isSome) archives
    (.start (.dense (rowNames settings archives) operators.names)
      (settings.sample.map AuditReport.start))

/-- What a pipeline comes to that has run to its end. Its main thread has returned then. -/
def finalResult (s : State) : Except (Failure Cause) Outcome :=
  match s.main with
  | .returned result => result
  | _ => .error (.disconnected "list-archives")

/-- The result of a census from the outcome of its pipeline. -/
def Result.ofOutcome (outcome : Outcome) : Result :=
  ⟨outcome.1.table, outcome.1.messages, outcome.1.audit.map fun report =>
    outcome.2.foldl (fun report tallies => report.addTallies Evidence.inspected tallies) report⟩

/-- Make a census of the archives in a file tree. -/
def run (tree : FileTree) (settings : Settings) (operators : Operators) :
    Except (Failure Cause) Result × List Notice :=
  match settings.validate with
  | .error problem => (.error (.cause (.config problem)), [])
  | .ok () =>
    match Archive.list tree settings.archives settings.excluded with
    | .error cause => (.error (.cause cause), [])
    | .ok (archives, notices) =>
      let begun := notices ++ [startNotice settings operators archives.length]
      match finalResult
          ((start settings operators archives).run (plan tree settings operators.names)) with
      | .error failure => (.error failure, begun)
      | .ok outcome =>
        let result := Result.ofOutcome outcome
        (.ok result,
          begun ++ (result.audit.map AuditReport.importNotices).getD [])

end CallCensus.Census
