import CallCensus.App.CommandLine

/-!
The program. The places that a run may look at are read into a file tree, the run is made
on the tree, and the files that it has changed are written back.
-/

namespace CallCensus.Program

open App

/-- The paths on the way to a path, and the path itself. -/
def wayTo (path : String) : List String :=
  let segments := Path.segments path
  (List.range segments.length).map fun i => "/".intercalate (segments.take (i + 1))

/-- Read what is at a path into a tree: a file with its bytes, a directory by itself. -/
def readPlace (tree : FileTree) (path : String) : IO FileTree := do
  try
    let place ← IO.FS.realPath path
    if ← place.isDir then return (tree.makeDirectories path).1
    if ← place.pathExists then
      return (tree.writeFile path (← IO.FS.readBinFile path)).1
    return tree
  catch _ => return tree

/-- Read a path with everything on the way to it. -/
def readPath (tree : FileTree) (path : String) : IO FileTree :=
  (wayTo path).foldlM readPlace tree

/-- Read a directory with its entries. -/
def readDirectory (tree : FileTree) (path : String) : IO FileTree := do
  let tree ← readPath tree path
  try
    let place ← IO.FS.realPath path
    if ← place.isDir then
      (← place.readDir).foldlM (fun tree e => readPlace tree (Path.join path e.fileName)) tree
    else return tree
  catch _ => return tree

/-- Read the places that a run with the given arguments may look at. -/
def readInputs (tree : FileTree) (arguments : Arguments) : IO FileTree := do
  let tree ← readPath tree arguments.config
  match Config.load tree arguments.config with
  | .error _ => return tree
  | .ok config =>
    let layout := config.layout
    let tree ← [layout.languages, layout.archiveIndex, layout.auditSample, layout.auditOutput,
      resultPath config].foldlM readPath tree
    [layout.operators, layout.archives].foldlM readDirectory tree

/-- The path of a location. -/
def pathOf (tree : FileTree) (l : Location) : String :=
  (tree.pathTo? l).getD ("/" ++ "/".intercalate l)

/-- Write a file, with the directories that lead to it. -/
def writeBack (path : String) (bytes : ByteArray) : IO Unit := do
  let parent := (Path.parent? path).getD ""
  if !parent.isEmpty then IO.FS.createDirAll parent
  IO.FS.writeBinFile path bytes

/-- Tell the user something. -/
def tellUser : Notice → IO Unit
  | .info message => IO.eprintln ("[INFO] " ++ message)
  | .warning message => IO.eprintln ("[WARN] " ++ message)

/-- The tree before anything is read: an empty directory, which is the current one. -/
def emptyTree : FileTree :=
  ⟨[(["."], .directory)], ["."]⟩

/-- The number of cores that the system has, as far as it tells, and at least one. -/
def countCores : IO Nat := do
  try
    let lines ← IO.FS.lines "/proc/cpuinfo"
    return max 1 (lines.countP fun line => line.startsWith "processor")
  catch _ => return 1

/-- Run the program on the files of the system. -/
def run (words : List String) : IO UInt32 := do
  let before ← match Arguments.parse words with
    | .error _ => pure emptyTree
    | .ok arguments => readInputs emptyTree arguments
  let ending := CommandLine.run (← countCores) before words
  IO.print ending.output
  ending.notices.forM tellUser
  (FileTree.changes before ending.tree).forM fun (l, bytes) =>
    writeBack (pathOf ending.tree l) bytes
  match ending.problem with
  | none => pure ()
  | some (statement, problem) => IO.eprintln ("[ERROR] " ++ statement ++ ": " ++ problem.message)
  return UInt32.ofNat ending.exitCode

end CallCensus.Program

/-- Run the program. -/
def main (words : List String) : IO UInt32 :=
  CallCensus.Program.run words
