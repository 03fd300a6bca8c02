import CallCensus.Error
import CallCensus.Evidence
import CallCensus.Json.Writer
import CallCensus.Notice
import CallCensus.Record

/-!
Auditing a census for false positives.

Collection libraries have methods that are named like reactive operators. An audit
counts how many of the files taken into account use such a library, and keeps the
counts of a sample of files so that they can be reviewed by hand.

* `Audit.parseSample`, `Audit.loadSample?`: the files of a sample;
* `AuditReport.record`: keeps the counts of sampled files;
* `AuditReport.addTallies`: adds up how many files use which library.
-/

namespace CallCensus

/-- The files of a sample: one a line, without the white space around them, and blank
lines left out. -/
def Audit.parseSample (s : Text) : NameSet :=
  NameSet.ofList
    ((((Text.lines s).map Text.trim).filter fun line => !line.isEmpty).map String.ofList)

/-- The sample that a file lists. -/
def Audit.loadSample? (tree : FileTree) (path : String) : Except Cause (NameSet × List Notice) :=
  match tree.readText path with
  | .error why => .error (.sampleRead path why)
  | .ok text =>
    let sample := Audit.parseSample text
    .ok (sample,
      [.info ("Total of collection-like sample files: " ++ toString sample.size)])

/-- What an audit found. -/
structure AuditReport where
  /-- How many files use each library. -/
  imports : Dict Nat
  /-- The counts that are not zero, by sampled file and operator. -/
  files : Dict (Dict UInt64)

namespace AuditReport

/-- The report at the start: nothing is found in any file of the sample. -/
def start (sample : NameSet) : AuditReport :=
  ⟨.empty, Dict.ofList (sample.toList.map fun file => (file, .empty))⟩

/-- Keep a count, if it is not zero and its file is in the sample. -/
def record (r : AuditReport) (c : CallCount) : AuditReport :=
  if c.total = 0 then r
  else
    match r.files.modify? c.file fun counts => counts.insert c.operator c.total with
    | none => r
    | some files => { r with files := files }

/-- Add up how many files use each library. -/
def addTallies (r : AuditReport) (libraries : List Evidence.Library) (tallies : List Nat) :
    AuditReport :=
  { r with
    imports := (libraries.zip tallies).foldl
      (fun imports (library, n) =>
        imports.insert library.name ((imports.get? library.name).getD 0 + n)) r.imports }

/-- The notices about the libraries, one each. -/
def importNotices (r : AuditReport) : List Notice :=
  r.imports.entries.map fun (library, n) =>
    .info (library ++ " File Count: " ++ toString n)

/-- The counts of the sampled files as JSON. -/
def toJson (r : AuditReport) : Text :=
  Json.pretty (Json.pretty Json.writeCount 1) 0 r.files

end AuditReport

end CallCensus
