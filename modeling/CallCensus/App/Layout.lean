import CallCensus.FileTree.Path

/-!
Where the program finds its inputs and puts its results, below a directory of assets.
-/

namespace CallCensus.App

/-- The files and directories of the program. -/
structure Layout where
  /-- The directory of the archives. -/
  archives : String
  /-- The list of the archives that are known. -/
  archiveIndex : String
  /-- The directory of the operator lists. -/
  operators : String
  /-- The table of languages and their extensions. -/
  languages : String
  /-- The directory of the results. -/
  results : String
  /-- The directory of the audits. -/
  falsePositives : String

namespace Layout

/-- The layout below a directory of assets, for one distribution. -/
def below (assets distribution : String) : Layout :=
  let retrieval := Path.join (Path.join assets "repo-retrieval") distribution
  { archives := Path.join retrieval "archives"
    archiveIndex := Path.join retrieval "list_of_files.json"
    operators := Path.join assets "operators"
    languages := Path.join assets "Programming_Languages_Extensions.json"
    results := Path.join assets "operators-search"
    falsePositives := Path.join assets "false-positives" }

/-- The list of the sampled files. -/
def auditSample (l : Layout) : String :=
  Path.join l.falsePositives "collection-like_sample.txt"

/-- The file for the counts of the sampled files. -/
def auditOutput (l : Layout) : String :=
  Path.join l.falsePositives "collection-like_count.json"

end Layout

end CallCensus.App
