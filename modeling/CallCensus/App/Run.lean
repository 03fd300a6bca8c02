import CallCensus.App.Arguments
import CallCensus.App.Config
import CallCensus.App.Index
import CallCensus.App.Languages
import CallCensus.App.Output
import CallCensus.Census.Run

/-!
A run of the program: the inputs are read, the census is made, and its results are
written. Nothing is written before everything has succeeded.

The machine has a number of `cores`, which is the number of workers where the configuration gives
none.

* `App.prepare`: everything up to the census, which changes no file;
* `App.inspect`: everything up to the result of the census, which changes no file either;
* `App.run`: the whole run.
-/

namespace CallCensus.App

/-- The name and version of the program. -/
def versionLine : String := "opsminer 0.3.0"

/-- A computation that tells the user something on its way and may fail. -/
abbrev Telling := ExceptT Problem (StateM (List Notice))

/-- Tell the user something. -/
def tell (notices : List Notice) : Telling Unit :=
  modify fun before => before ++ notices

/-- Go on with a value, or fail. -/
def orFail {α : Type} (r : Except Problem α) : Telling α :=
  ExceptT.mk (pure r)

/-- Go on with a part of the census and tell what it has to tell, or fail. -/
def orCause {α : Type} (r : Except Cause (α × List Notice)) : Telling α :=
  match r with
  | .error cause => throw (.census (.cause cause))
  | .ok (a, notices) => do
    tell notices
    pure a

/-- What a run knows before its census. -/
structure Inputs where
  config : Config
  settings : Settings
  operators : Operators

/-- What a run knows after its census. -/
structure Findings where
  config : Config
  result : Census.Result

/-- The notice at the start of a run. -/
def greeting (config : Config) : Notice :=
  .info ("opsminer v0.3.0 mining " ++ config.distribution ++ " (" ++
    ", ".intercalate config.languages ++ ")")

/-- The settings of the census that a configuration asks for. -/
def settingsOf (cores : Nat) (config : Config) (allowed : NameSet) (known : Option (List String))
    (sample : Option NameSet) : Settings where
  archives := config.layout.archives
  distribution := config.distribution
  allowed := allowed
  known := known
  excluded := NameSet.ofList config.excludedArchives
  workers := config.workers.getD cores
  counterWorkers := config.counterWorkers
  queueCapacity := config.queueCapacity.getD Settings.defaultQueueCapacity
  backtrackLimit := config.backtrackLimit.getD Settings.defaultBacktrackLimit
  sample := sample

/-- Read the inputs. -/
def prepare (cores : Nat) (tree : FileTree) (arguments : Arguments) : Telling Inputs := do
  let config ← orFail (Config.load tree arguments.config)
  tell [greeting config]
  let layout := config.layout
  let table ← orFail (Language.load tree layout.languages)
  let (extensions, unknown) := Language.extensionsOf table config.languages
  tell unknown
  if extensions.size = 0 then throw (.config (.noExtensions config.languages))
  let operators ← orCause (Operators.load? tree layout.operators config.distribution)
  tell [.info ("Loaded " ++ toString operators.names.length ++ " operators")]
  let known ← orFail (Index.load tree layout.archiveIndex)
  let sample ← if arguments.checkFalsePositives then
      some <$> orCause (Audit.loadSample? tree layout.auditSample)
    else pure none
  pure ⟨config, settingsOf cores config extensions known sample, operators⟩

/-- Take what a census comes to, with what it has to tell. -/
def conclude (inputs : Inputs) (census : Except (Failure Cause) Census.Result × List Notice) :
    Telling Findings := do
  tell census.2
  match census.1 with
  | .error failure => throw (.census failure)
  | .ok result =>
    tell [.info ("Number of processed files: " ++
      toString (result.filesProcessed inputs.operators))]
    pure ⟨inputs.config, result⟩

/-- Read the inputs and make the census. -/
def inspect (cores : Nat) (tree : FileTree) (arguments : Arguments) : Telling Findings := do
  let inputs ← prepare cores tree arguments
  conclude inputs (Census.run tree inputs.settings inputs.operators)

/-- How a run ends. -/
structure Report where
  result : Except Problem Unit
  /-- The files after the run. -/
  tree : FileTree
  notices : List Notice

/-- The file for the result of a run. -/
def resultPath (config : Config) : String :=
  Path.join config.layout.results (Output.resultFileName config.distribution config.languages)

/-- Write the audit, if there is one. -/
def saveAudit (tree : FileTree) (notices : List Notice) (findings : Findings) : Report :=
  match findings.result.audit with
  | none => ⟨.ok (), tree, notices⟩
  | some report =>
    let path := findings.config.layout.auditOutput
    match Output.save tree path report.toJson with
    | (tree, .error problem) => ⟨.error problem, tree, notices⟩
    | (tree, .ok ()) =>
      ⟨.ok (), tree, notices ++ [.info ("False-positive report written to " ++ path)]⟩

/-- Write the result of a census, and its audit. -/
def saveFindings (tree : FileTree) (notices : List Notice) (findings : Findings) : Report :=
  let path := resultPath findings.config
  match Output.save tree path findings.result.table.toJson with
  | (tree, .error problem) => ⟨.error problem, tree, notices⟩
  | (tree, .ok ()) =>
    saveAudit tree (notices ++ [.info ("Results written to " ++ path)]) findings

/-- End a run with its findings, or with a problem. -/
def finish (tree : FileTree) : Except Problem Findings × List Notice → Report
  | (.error problem, notices) => ⟨.error problem, tree, notices⟩
  | (.ok findings, notices) => saveFindings tree notices findings

/-- Run the program on a file tree. -/
def run (cores : Nat) (tree : FileTree) (arguments : Arguments) : Report :=
  finish tree ((inspect cores tree arguments).run [])

end CallCensus.App
