import CallCensus.Error
import CallCensus.Json.Reader
import CallCensus.Json.Writer

/-!
The result of a census: a number of call sites for every archive and every operator.

A table is dense: all its cells are there before counting starts, and counting only
adds to them. Totals are 64-bit words.

* `Table.dense`: a table of zeros;
* `Table.add?`: one more count;
* `Table.toJson`, `Table.read`: a table as JSON, and back.
-/

namespace CallCensus

/-- Totals by archive and operator. -/
structure Table where
  rows : Dict (Dict UInt64)

namespace Table

/-- A row of zeros. -/
def zeroRow (operators : List String) : Dict UInt64 :=
  Dict.ofList (operators.map fun o => (o, 0))

/-- A table of zeros for the given archives and operators. -/
def dense (archives operators : List String) : Table :=
  ⟨Dict.ofList (archives.map fun a => (a, zeroRow operators))⟩

/-- The total of a cell, if the table has it. -/
def get? (t : Table) (archive operator : String) : Option UInt64 :=
  (t.rows.get? archive).bind fun row => row.get? operator

/-- The row of an archive, if the table has it. -/
def row? (t : Table) (archive : String) : Option (Dict UInt64) :=
  t.rows.get? archive

/-- The archives of a table, in increasing order. -/
def archives (t : Table) : List String :=
  t.rows.keys

/-- A table with `total` added to one of its cells. -/
def add? (t : Table) (archive operator : String) (total : UInt64) : Except Cause Table :=
  match t.rows.get? archive with
  | none => .error (.missingCell archive operator)
  | some row =>
    match row.modify? operator (· + total) with
    | none => .error (.missingCell archive operator)
    | some row => .ok ⟨t.rows.insert archive row⟩

/-- A table as JSON: an object of objects. -/
def toJson (t : Table) : Text :=
  Json.compact (Json.compact Json.writeCount) t.rows

/-- Read a total. -/
def readTotal : Json.Reader UInt64 := fun s =>
  (Json.count s).map fun r => (UInt64.ofNat r.1, r.2)

/-- Read a table. -/
def read : Json.Reader Table := fun s =>
  (Json.dict (Json.dict readTotal) s).map fun r => (⟨r.1⟩, r.2)

end Table

end CallCensus
