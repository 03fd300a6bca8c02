import CallCensus.Dict
import CallCensus.Error

/-!
The settings of a census.

* `Settings`: all settings;
* `Settings.validate`: whether a census can be made with them;
* `Settings.counterWorkersFor`: how many workers count each operator;
* `Settings.Draft`: settings of which some are still open.
-/

namespace CallCensus

/-- The settings of a census. -/
structure Settings where
  /-- The directory of the archives. -/
  archives : String
  distribution : String
  /-- The extensions, with their dots, of the files to be counted. -/
  allowed : NameSet
  /-- The archives that are known beforehand, or `none` for those in the directory. -/
  known : Option (List String)
  /-- The archives to be left out. -/
  excluded : NameSet
  /-- The number of workers of each stage before the counters. -/
  workers : Nat
  /-- The number of workers that count each operator, or `none` to spread `workers`. -/
  counterWorkers : Option Nat
  /-- How many items a queue keeps. -/
  queueCapacity : Nat
  /-- How often the search for a pattern may go back before it gives up. -/
  backtrackLimit : Nat
  /-- The sample to be audited, if any. -/
  sample : Option NameSet

namespace Settings

/-- The capacity of a queue where none is given. -/
def defaultQueueCapacity : Nat := 16

/-- How often a search may go back where no limit is given. -/
def defaultBacktrackLimit : Nat := 10000000

/-- Whether a census can be made with the settings. -/
def validate (s : Settings) : Except ConfigProblem Unit :=
  if s.workers = 0 then .error .noWorkers
  else if s.counterWorkers = some 0 then .error .noCounterWorkers
  else if (Text.trim s.distribution.toList).isEmpty then .error .emptyDistribution
  else .ok ()

/-- How many workers count each of a number of operators: as many as the settings say, or
else enough for all operators together to have `workers`, and at least one. -/
def counterWorkersFor (s : Settings) (operators : Nat) : Nat :=
  max 1 (s.counterWorkers.getD ((s.workers + (max operators 1 - 1)) / max operators 1))

/-- Settings of which some are still open. -/
structure Draft where
  archives : Option String
  distribution : Option String
  allowed : NameSet
  known : Option (List String)
  excluded : NameSet
  workers : Option Nat
  counterWorkers : Option Nat
  queueCapacity : Option Nat
  backtrackLimit : Option Nat
  sample : Option NameSet

/-- A setting that must be given. -/
inductive Required where
  | archives
  | distribution
deriving DecidableEq, Repr

/-- The settings of a draft, with the usual values for those that are open, or the first
one that must be given. There are as many workers as the machine has `cores` where their number
is open. -/
def Draft.complete (cores : Nat) (d : Draft) : Except Required Settings :=
  match d.archives, d.distribution with
  | none, _ => .error .archives
  | some _, none => .error .distribution
  | some archives, some distribution =>
    .ok {
      archives := archives
      distribution := distribution
      allowed := d.allowed
      known := d.known
      excluded := d.excluded
      workers := d.workers.getD cores
      counterWorkers := d.counterWorkers
      queueCapacity := d.queueCapacity.getD defaultQueueCapacity
      backtrackLimit := d.backtrackLimit.getD defaultBacktrackLimit
      sample := d.sample }

end Settings

end CallCensus
