import CallCensus.Archive.Contents
import CallCensus.Dict
import CallCensus.Error
import CallCensus.Record

/-!
Taking source files out of an archive.

Members are visited in order. A member that is no regular file, or whose extension is not
allowed, is passed over without reading its data. Reading stops at the first fault, and
what was taken out before it stays taken out.
-/

namespace CallCensus.Archive

/-- Whether a file with the given path is to be taken. -/
def isAllowed (allowed : NameSet) (path : String) : Bool :=
  match Path.dottedExtension? path with
  | none => false
  | some extension => allowed.contains extension

/-- The source files among members of an archive, after those in `done`, which are in
reverse order, and the first failure. -/
def extractOnto (allowed : NameSet) (archive : String) (fault : Option Fault)
    (done : List SourceFile) : List Entry → List SourceFile × Option Cause
  | [] => (done.reverse, fault.map (.archiveRead archive))
  | e :: rest =>
    if e.regular then
      match e.path with
      | .error why => (done.reverse, some (.archiveRead archive why))
      | .ok path =>
        if isAllowed allowed path then
          match e.data with
          | .error why => (done.reverse, some (.entryRead archive path why))
          | .ok bytes =>
            extractOnto allowed archive fault
              (⟨archive, path, Text.Utf8.decodeLossy bytes⟩ :: done) rest
        else extractOnto allowed archive fault done rest
    else extractOnto allowed archive fault done rest

/-- The source files in an archive with an allowed extension, up to the first failure,
and that failure. -/
def extract (allowed : NameSet) (archive : String) (contents : Contents) :
    List SourceFile × Option Cause :=
  extractOnto allowed archive contents.fault [] contents.entries

/-- An archive in a file tree. -/
structure Reference where
  /-- Its name, which stands for it in the result. -/
  name : String
  path : String
deriving DecidableEq

/-- The source files of an archive in a file tree, up to the first failure, and that
failure. -/
def extractFrom (tree : FileTree) (allowed : NameSet) (r : Reference) :
    List SourceFile × Option Cause :=
  match Contents.open? tree r.path with
  | .error why => ([], some (.archiveOpen r.path why))
  | .ok contents => extract allowed r.name contents

end CallCensus.Archive
