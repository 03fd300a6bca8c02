import CallCensus.App.Problem
import CallCensus.Unicode.Lowercase

/-!
Writing result files.
-/

namespace CallCensus.App.Output

/-- The name of the result file: the distribution in lower case and the languages as they
are given. -/
def resultFileName (distribution : String) (languages : List String) : String :=
  Unicode.lowercase distribution ++ "_" ++ "-".intercalate languages ++ ".json"

/-- Write a text to a file, with the directories that lead to it. The tree holds what was
written, also after a problem. -/
def save (tree : FileTree) (path : String) (text : Text) : FileTree × Except Problem Unit :=
  match Path.parent? path with
  | none => write tree
  | some parent =>
    match tree.makeDirectories parent with
    | (tree, .error why) => (tree, .error (.write parent why))
    | (tree, .ok ()) => write tree
where
  /-- Write the file itself. -/
  write (tree : FileTree) : FileTree × Except Problem Unit :=
    match tree.writeFile path (String.ofList text).toUTF8 with
    | (tree, .error why) => (tree, .error (.write path why))
    | (tree, .ok ()) => (tree, .ok ())

end CallCensus.App.Output
