import CallCensus.FileTree.Path
import CallCensus.Text.Utf8

/-!
File trees as values.

A tree is a list of places: each is a directory or a file at a location, which is the
list of names that leads to it from the root. The list also fixes the order in which
the entries of a directory are enumerated. Paths are followed from the root when they
are absolute, and from the tree's current directory otherwise.

* `FileTree.walk`: the location that a path leads to;
* `FileTree.readFile`, `FileTree.readText`, `FileTree.readDirectory`: reading;
* `FileTree.makeDirectories`, `FileTree.writeFile`: writing;
* `FileTree.changes`: the files of a tree that another tree lacks or holds differently.
-/

namespace CallCensus

/-- Why a file or directory cannot be read or written. -/
inductive FileProblem where
  /-- There is nothing at the path. -/
  | notFound
  /-- The path leads through a file, or a directory was wanted. -/
  | notADirectory
  /-- A file was wanted. -/
  | isADirectory
  /-- Something is already there. -/
  | alreadyExists
  /-- A file read as text is not UTF-8. -/
  | invalidData
  /-- The path holds a character that no path can hold. -/
  | invalidInput
  /-- A name is too long. -/
  | invalidFilename
deriving DecidableEq, Repr

/-- A file problem in words. -/
def FileProblem.message : FileProblem → String
  | notFound => "no such file or directory"
  | notADirectory => "not a directory"
  | isADirectory => "is a directory"
  | alreadyExists => "already exists"
  | invalidData => "not valid UTF-8"
  | invalidInput => "invalid path"
  | invalidFilename => "file name too long"

/-- The names that lead to a place from the root of a tree. -/
abbrev Location := List String

/-- What is at a location. -/
inductive Place where
  | directory
  | file (bytes : ByteArray)

/-- A tree of directories and files, with a current directory. -/
structure FileTree where
  /-- The places, with the root left out. -/
  places : List (Location × Place)
  /-- The current directory. -/
  current : Location

namespace FileTree

/-- What is at a location, if anything. -/
def find? (t : FileTree) (l : Location) : Option Place :=
  if l.isEmpty then some .directory else t.places.lookup l

/-- The most bytes that a name may have. -/
def maxNameBytes : Nat := 255

/-- Follow one segment of a path from a location, which must be a directory. -/
def follow (t : FileTree) (l : Location) (segment : String) : Except FileProblem Location :=
  match t.find? l with
  | none => .error .notFound
  | some (.file _) => .error .notADirectory
  | some .directory =>
    if Path.isIdle segment then .ok l
    else if segment == ".." then .ok l.dropLast
    else if maxNameBytes < segment.utf8ByteSize then .error .invalidFilename
    else .ok (l ++ [segment])

/-- The location that a path leads to. Every place on the way must be a directory, but
there need not be anything at the location itself. -/
def walk (t : FileTree) (path : String) : Except FileProblem Location :=
  if path.isEmpty then .error .notFound
  else if path.toList.contains (Char.ofNat 0) then .error .invalidInput
  else
    (Path.segments path).foldlM t.follow (if path.startsWith "/" then [] else t.current)

/-- What is at a path. -/
def look (t : FileTree) (path : String) : Except FileProblem Place :=
  match t.walk path with
  | .error e => .error e
  | .ok l =>
    match t.find? l with
    | none => .error .notFound
    | some place => .ok place

/-- Whether a path leads to a file. -/
def isFile (t : FileTree) (path : String) : Bool :=
  match t.look path with
  | .ok (.file _) => true
  | _ => false

/-- The bytes of the file at a path. -/
def readFile (t : FileTree) (path : String) : Except FileProblem ByteArray :=
  match t.look path with
  | .error e => .error e
  | .ok .directory => .error .isADirectory
  | .ok (.file bytes) => .ok bytes

/-- The text of the file at a path. -/
def readText (t : FileTree) (path : String) : Except FileProblem Text :=
  match t.readFile path with
  | .error e => .error e
  | .ok bytes =>
    match Text.Utf8.decode? bytes with
    | none => .error .invalidData
    | some text => .ok text

/-- The names in a directory with what is there, in enumeration order. -/
def children (t : FileTree) (l : Location) : List (String × Place) :=
  t.places.filterMap fun (at', place) =>
    match at'.getLast? with
    | none => none
    | some name => if at'.dropLast = l then some (name, place) else none

/-- The entries of the directory at a path. -/
def readDirectory (t : FileTree) (path : String) : Except FileProblem (List (String × Place)) :=
  match t.walk path with
  | .error e => .error e
  | .ok l =>
    match t.find? l with
    | none => .error .notFound
    | some (.file _) => .error .notADirectory
    | some .directory => .ok (t.children l)

/-- Put something at a location, in the place of what is there. -/
def put (t : FileTree) (l : Location) (place : Place) : FileTree :=
  if (t.find? l).isSome then
    { t with places := t.places.map fun p => if p.1 = l then (l, place) else p }
  else { t with places := t.places ++ [(l, place)] }

/-- Follow the segments of a path from a location, and create the directories that are
missing on the way. The tree holds what was created, also after a problem. -/
def makeAlong (t : FileTree) (l : Location) : List String → FileTree × Except FileProblem Unit
  | [] => (t, .ok ())
  | segment :: rest =>
    match t.follow l segment with
    | .error e => (t, .error e)
    | .ok l =>
      match t.find? l with
      | none => makeAlong (t.put l .directory) l rest
      | some .directory => makeAlong t l rest
      | some (.file _) =>
        (t, .error (if rest.isEmpty then .alreadyExists else .notADirectory))

/-- Create a directory with all directories that lead to it. The empty path stands for
the current directory, which is there. -/
def makeDirectories (t : FileTree) (path : String) : FileTree × Except FileProblem Unit :=
  if path.isEmpty then (t, .ok ())
  else if path.toList.contains (Char.ofNat 0) then (t, .error .invalidInput)
  else t.makeAlong (if path.startsWith "/" then [] else t.current) (Path.segments path)

/-- Write a file, in the place of what it held before. -/
def writeFile (t : FileTree) (path : String) (bytes : ByteArray) :
    FileTree × Except FileProblem Unit :=
  match t.walk path with
  | .error e => (t, .error e)
  | .ok l =>
    match t.find? l with
    | some .directory => (t, .error .isADirectory)
    | _ => (t.put l (.file bytes), .ok ())

/-- The files of a tree. -/
def files (t : FileTree) : List (Location × ByteArray) :=
  t.places.filterMap fun (l, place) =>
    match place with
    | .directory => none
    | .file bytes => some (l, bytes)

/-- The files of a tree that `old` lacks or holds with other contents. -/
def changes (old t : FileTree) : List (Location × ByteArray) :=
  t.files.filter fun (l, bytes) =>
    match old.find? l with
    | some (.file before) => before.data != bytes.data
    | _ => true

/-- The path from the current directory to a location below it. -/
def pathTo? (t : FileTree) (l : Location) : Option String :=
  if t.current.isPrefixOf l then some ("/".intercalate (l.drop t.current.length)) else none

end FileTree

end CallCensus
