import CallCensus.App.Layout
import CallCensus.App.Reading

/-!
The configuration file.

* `Config.read`: a configuration from JSON. Keys that mean nothing here are passed over;
* `Config.validate`: whether a run can be made with it;
* `Config.load`: both, for a file.
-/

namespace CallCensus.App

/-- A configuration. -/
structure Config where
  distribution : String
  /-- The names of the languages whose files are counted. -/
  languages : List String
  /-- The directory of the inputs and results. -/
  assets : String
  workers : Option Nat
  counterWorkers : Option Nat
  queueCapacity : Option Nat
  backtrackLimit : Option Nat
  excludedArchives : List String
deriving DecidableEq

namespace Config

/-- The directory of the inputs and results where none is given. -/
def defaultAssets : String := "assets"

/-- A configuration of which only some keys have been read. -/
structure Draft where
  distribution : Option String
  languages : Option (List String)
  assets : Option String
  workers : Option (Option Nat)
  counterWorkers : Option (Option Nat)
  queueCapacity : Option (Option Nat)
  backtrackLimit : Option (Option Nat)
  excludedArchives : Option (List String)

/-- No key has been read. -/
def Draft.empty : Draft :=
  ⟨none, none, none, none, none, none, none, none⟩

/-- Read a value and put it into a draft. -/
def Draft.reading {α : Type} (read : Json.Reader α) (put : Draft → α → Draft) (d : Draft) :
    Json.Reader Draft := fun s =>
  (read s).map fun r => (put d r.1, r.2)

/-- The keys of a configuration. -/
def fields : List (Json.Field Draft) :=
  [⟨"distribution", fun d => d.distribution.isSome,
      Draft.reading Json.string fun d v => { d with distribution := some v }, false⟩,
    ⟨"fileExtensions", fun d => d.languages.isSome,
      Draft.reading (Json.list Json.string) fun d v => { d with languages := some v }, false⟩,
    ⟨"assetsDir", fun d => d.assets.isSome,
      Draft.reading Json.string fun d v => { d with assets := some v }, true⟩,
    ⟨"workers", fun d => d.workers.isSome,
      Draft.reading (Json.optional Json.count) fun d v => { d with workers := some v }, true⟩,
    ⟨"counterWorkers", fun d => d.counterWorkers.isSome,
      Draft.reading (Json.optional Json.count) fun d v => { d with counterWorkers := some v }, true⟩,
    ⟨"queueCapacity", fun d => d.queueCapacity.isSome,
      Draft.reading (Json.optional Json.count) fun d v => { d with queueCapacity := some v }, true⟩,
    ⟨"backtrackLimit", fun d => d.backtrackLimit.isSome,
      Draft.reading (Json.optional Json.count) fun d v => { d with backtrackLimit := some v }, true⟩,
    ⟨"excludedArchives", fun d => d.excludedArchives.isSome,
      Draft.reading (Json.list Json.string) fun d v => { d with excludedArchives := some v }, true⟩]

/-- The configuration of a draft that has all keys that it must have. -/
def Draft.complete? (d : Draft) : Option Config :=
  match d.distribution, d.languages with
  | some distribution, some languages =>
    some {
      distribution := distribution
      languages := languages
      assets := d.assets.getD defaultAssets
      workers := d.workers.getD none
      counterWorkers := d.counterWorkers.getD none
      queueCapacity := d.queueCapacity.getD none
      backtrackLimit := d.backtrackLimit.getD none
      excludedArchives := d.excludedArchives.getD [] }
  | _, _ => none

/-- Read a configuration. -/
def read : Json.Reader Config := fun s =>
  match Json.record fields .empty s with
  | .error flaw => .error flaw
  | .ok (draft, s) =>
    match draft.complete? with
    | none => .error .mismatch
    | some config => .ok (config, s)

/-- Whether a run can be made with a configuration. -/
def validate (c : Config) : Except ConfigProblem Unit :=
  if (Text.trim c.distribution.toList).isEmpty then .error .emptyDistribution
  else if c.languages.isEmpty then .error .noLanguages
  else if c.workers = some 0 ∨ c.counterWorkers = some 0 then .error .noWorkers
  else if c.queueCapacity = some 0 then .error .noQueueCapacity
  else .ok ()

/-- The configuration in a file. -/
def load (tree : FileTree) (path : String) : Except Problem Config :=
  match readJson tree read path with
  | .error problem => .error problem
  | .ok config =>
    match config.validate with
    | .error problem => .error (.config problem)
    | .ok () => .ok config

/-- Where the run finds its inputs and puts its results. -/
def layout (c : Config) : Layout :=
  .below c.assets c.distribution

end Config

end CallCensus.App
