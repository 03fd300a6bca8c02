import CallCensus.App.Problem
import CallCensus.Json.Reader

/-!
Reading the JSON files of the program.
-/

namespace CallCensus.App

variable {α : Type}

/-- The value in a JSON file. -/
def readJson (tree : FileTree) (read : Json.Reader α) (path : String) : Except Problem α :=
  match tree.readText path with
  | .error why => .error (.read path why)
  | .ok text =>
    match Json.parse read text with
    | .error flaw => .error (.parse path flaw)
    | .ok value => .ok value

end CallCensus.App
