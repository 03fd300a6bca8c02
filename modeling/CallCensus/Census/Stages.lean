import CallCensus.CallSite
import CallCensus.Census.Settings
import CallCensus.Comment
import CallCensus.Literal
import CallCensus.Pipeline.State

/-!
What the stages of a census do.

Evidence is looked for after comments are removed and before literals are, because some
languages name what they import in a literal.
-/

namespace CallCensus.Census

open Pipeline

/-- Take the source files out of an archive. -/
def extractStage (tree : FileTree) (allowed : NameSet) :
    Stage Unit Archive.Reference SourceFile Cause where
  name := "extract"
  process := fun _ archive =>
    match Archive.extractFrom tree allowed archive with
    | (files, none) => (files, .done ())
    | (files, some cause) => (files, .failed cause)

/-- Remove the comments of a file. -/
def commentStage (limit : Nat) : Stage Unit SourceFile SourceFile Cause where
  name := "strip-comments"
  process := fun _ file => ([{ file with content := Comment.strip limit file.content }], .done ())

/-- The numbers of files that use each of the inspected libraries, after one more file.
Where nothing is audited there are no numbers. -/
def tally (tallies : List Nat) (s : Text) : List Nat :=
  List.zipWith (fun (library : Evidence.Library) n => if library.usedIn s then n + 1 else n)
    Evidence.inspected tallies

/-- Let a file pass if it names the distribution, and count the libraries that it uses. -/
def importStage (distribution : String) : Stage (List Nat) SourceFile SourceFile Cause where
  name := "check-import"
  process := fun tallies file =>
    if Evidence.mentions distribution file.content then
      ([file], .done (tally tallies file.content))
    else ([], .done tallies)

/-- The numbers to start from. -/
def startTallies (audited : Bool) : List Nat :=
  if audited then Evidence.inspected.map fun _ => 0 else []

/-- Remove the literals of a file. -/
def literalStage (limit : Nat) : Stage Unit SourceFile SourceFile Cause where
  name := "strip-strings"
  process := fun _ file => ([{ file with content := Literal.strip limit file.content }], .done ())

/-- Count an operator in a file. Every file gives a count, if only of zero. -/
def counterStage (limit : Nat) (operator : String) : Stage Unit SourceFile CallCount Cause where
  name := "count"
  process := fun _ file =>
    ([file.counted operator (UInt64.ofNat (CallSite.count limit operator.toList file.content))],
      .done ())

/-- The stages of a census. -/
def plan (tree : FileTree) (settings : Settings) (operators : List String) : Plan where
  extract := extractStage tree settings.allowed
  comments := commentStage settings.backtrackLimit
  imports := importStage settings.distribution
  literals := literalStage settings.backtrackLimit
  counters := operators.map (counterStage settings.backtrackLimit)
  add := Aggregate.add?
  capacity := settings.queueCapacity

end CallCensus.Census
