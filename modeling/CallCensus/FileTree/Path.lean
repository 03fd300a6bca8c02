/-!
Paths as texts.

A path is a list of segments separated by slashes, and absolute when it starts with a
slash. Nothing is normalised: segments that are empty or `.` stay in a path, but they
do not count when its last component is asked for.

* `Path.join`: a path inside a directory;
* `Path.parent?`: the directory part of a path;
* `Path.fileName?`, `Path.extension?`: the last component and what follows its last dot.
-/

namespace CallCensus.Path

/-- A path continued by another. An absolute path stands for itself. -/
def join (base path : String) : String :=
  if path.startsWith "/" then path
  else if base.isEmpty || base.endsWith "/" then base ++ path
  else base ++ "/" ++ path

/-- The segments after those in `done`, where `segment` is the part of the current one
already read; both are in reverse order. -/
def segmentsOnto (done : List String) (segment : List Char) : List Char → List String
  | [] => (String.ofList segment.reverse :: done).reverse
  | c :: rest =>
    if c = '/' then segmentsOnto (String.ofList segment.reverse :: done) [] rest
    else segmentsOnto done (c :: segment) rest

/-- The segments of a path between its slashes. -/
def segments (path : String) : List String :=
  segmentsOnto [] [] path.toList

/-- Whether a segment changes nothing when a path is followed. -/
def isIdle (segment : String) : Bool :=
  segment.isEmpty || segment == "."

/-- Segments, given backwards, without the idle ones at their end. The first segment of
a path always counts. -/
def dropIdle : List String → List String
  | [] => []
  | [first] => [first]
  | last :: before => if isIdle last then dropIdle before else last :: before

/-- The path with the given segments, which are given backwards. -/
def ofReversed : List String → String
  | [""] => "/"
  | segments => "/".intercalate segments.reverse

/-- The directory part of a path: everything before its last component. The root and
the empty path have none. -/
def parent? (path : String) : Option String :=
  match dropIdle (segments path).reverse with
  | [] => none
  | [first] => if first.isEmpty then none else some ""
  | _ :: before => some (ofReversed (dropIdle before))

/-- The last component of a path, unless it is `.`, `..` or the root. -/
def fileName? (path : String) : Option String :=
  match dropIdle (segments path).reverse with
  | [] => none
  | last :: _ => if isIdle last || last == ".." then none else some last

/-- The part of a file name after its last dot. A dot at the very start is part of the
name, and a name without another dot has no extension. -/
def extensionOf? (name : String) : Option String :=
  match name.toList.reverse.span (· != '.') with
  | (_, []) => none
  | (_, [_]) => none
  | (after, _ :: _ :: _) => some (String.ofList after.reverse)

/-- The extension of the last component of a path. -/
def extension? (path : String) : Option String :=
  (fileName? path).bind extensionOf?

/-- The extension of the last component of a path, with its dot. -/
def dottedExtension? (path : String) : Option String :=
  (extension? path).map ("." ++ ·)

end CallCensus.Path
