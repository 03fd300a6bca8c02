import CallCensus.Archive.Extract
import CallCensus.Notice

/-!
The archives in a directory: its regular files with the names of archives, in the order
of their names, without those that are excluded.
-/

namespace CallCensus.Archive

/-- The endings of the names of archives. -/
def nameEndings : List String := [".tar.gz", ".tgz"]

/-- Whether a name is that of an archive. -/
def isArchiveName (name : String) : Bool :=
  nameEndings.any fun ending => name.endsWith ending

/-- The names of the archives among the entries of a directory, in enumeration order. -/
def namesIn (entries : List (String × Place)) : List String :=
  entries.filterMap fun (name, place) =>
    match place with
    | .directory => none
    | .file _ => if isArchiveName name then some name else none

/-- The notice about an archive that is left out. -/
def exclusionNotice (name : String) : Notice :=
  .warning ("Skipping excluded archive " ++ name)

/-- The archives in a directory. -/
def list (tree : FileTree) (directory : String) (excluded : NameSet) :
    Except Cause (List Reference × List Notice) :=
  match tree.readDirectory directory with
  | .error why => .error (.archiveDirectory directory why)
  | .ok entries =>
    let names := namesIn entries
    let kept := NameSet.ofList (names.filter fun name => !excluded.contains name)
    .ok (kept.toList.map fun name => ⟨name, Path.join directory name⟩,
      (names.filter fun name => excluded.contains name).map exclusionNotice)

end CallCensus.Archive
