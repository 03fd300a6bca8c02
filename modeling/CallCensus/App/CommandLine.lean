import CallCensus.App.Run

/-!
The program as seen from a command line: an exit code, a text on standard output, and
what the run has to tell.
-/

namespace CallCensus.App.CommandLine

/-- What the program prints when it is asked for help. -/
def helpText : String :=
  "Count operator call sites in archived repository snapshots\n" ++
  "\n" ++
  "Usage: opsminer [OPTIONS]\n" ++
  "\n" ++
  "Options:\n" ++
  "  -c, --config <CONFIG>        Configuration file (distribution, fileExtensions, ...) [default: configs/config.json]\n" ++
  "      --check-false-positives  Count imports of Java collection-like libraries and report the operator counts of the sampled files for false-positive review\n" ++
  "  -h, --help                   Print help\n" ++
  "  -V, --version                Print version\n"

/-- How the program ends. -/
structure Ending where
  exitCode : Nat
  /-- The text on standard output. -/
  output : String
  /-- What failed and why, if a run has failed. -/
  problem : Option (String × Problem)
  notices : List Notice
  /-- The files afterwards. -/
  tree : FileTree

/-- What a failed run is reported as. -/
def failureStatement (config : String) : String :=
  "mining run with '" ++ config ++ "' failed"

/-- How the program ends that was asked for something, or whose command line is wrong. -/
def ofUsage (tree : FileTree) : Usage → Ending
  | .help => ⟨0, helpText, none, [], tree⟩
  | .version => ⟨0, versionLine ++ "\n", none, [], tree⟩
  | _ => ⟨2, "", none, [], tree⟩

/-- How the program ends that has made a run. -/
def ofReport (arguments : Arguments) (r : Report) : Ending :=
  match r.result with
  | .ok () => ⟨0, "", none, r.notices, r.tree⟩
  | .error problem =>
    ⟨1, "", some (failureStatement arguments.config, problem), r.notices, r.tree⟩

/-- The program with the words of a command line, on a machine with a number of `cores`. -/
def run (cores : Nat) (tree : FileTree) (words : List String) : Ending :=
  match Arguments.parse words with
  | .error usage => ofUsage tree usage
  | .ok arguments => ofReport arguments (App.run cores tree arguments)

end CallCensus.App.CommandLine
