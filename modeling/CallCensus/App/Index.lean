import CallCensus.App.Reading

/-!
The index of archives: a JSON list that gives a file name for each known archive.
-/

namespace CallCensus.App.Index

/-- The key of an entry that counts. -/
def fields : List (Json.Field (Option String)) :=
  [⟨"fileName", Option.isSome, fun _ s => (Json.string s).map fun r => (some r.1, r.2), false⟩]

/-- Read an entry. -/
def readEntry : Json.Reader String := fun s =>
  match Json.record fields none s with
  | .error flaw => .error flaw
  | .ok (some name, s) => .ok (name, s)
  | .ok (none, _) => .error .mismatch

/-- The names of the known archives, or `none` if there is no index. -/
def load (tree : FileTree) (path : String) : Except Problem (Option (List String)) :=
  if tree.isFile path then (readJson tree (Json.list readEntry) path).map some else .ok none

end CallCensus.App.Index
