import CallCensus.Archive.Header

/-!
Extended headers: records that say more about the next member of an archive.

A record is a line of the form `length key=value`, where the length is that of the whole
line with its line break. Lines that do not have this form are malformed. The records end
at the first empty line.
-/

namespace CallCensus.Archive.Pax

/-- A record: its key and its value. -/
structure Record where
  key : List UInt8
  value : List UInt8

/-- The lines after those in `done`, where `line` is the part of the current line already
read; both are in reverse order. -/
def linesOnto (done : List (List UInt8)) (line : List UInt8) : List UInt8 → List (List UInt8)
  | [] => (line.reverse :: done).reverse
  | b :: rest =>
    if b = 10 then linesOnto (line.reverse :: done) [] rest else linesOnto done (b :: line) rest

/-- The record on a line, if it is well formed. -/
def record? (line : List UInt8) : Option Record :=
  match line.span (· != 32) with
  | (_, []) => none
  | (length, _ :: entry) =>
    match (Text.Utf8.decode? ⟨length.toArray⟩).bind (Header.unsigned? 10) with
    | none => none
    | some n =>
      if n = line.length + 1 then
        match entry.span (· != 61) with
        | (_, []) => none
        | (key, _ :: value) => some ⟨key, value⟩
      else none

/-- The records of an extended header, with `none` for malformed ones. -/
def records (bytes : ByteArray) : List (Option Record) :=
  ((linesOnto [] [] bytes.toList).takeWhile fun line => !line.isEmpty).map record?

/-- The path that an extended header gives: the first that is well formed. -/
def path? (bytes : ByteArray) : Option ByteArray :=
  ((records bytes).filterMap id).find? (fun r => r.key == "path".toUTF8.toList)
    |>.map fun r => ⟨r.value.toArray⟩

/-- The size that an extended header gives. It counts only if it is a number of 64 bits
and no malformed record comes before it. -/
def size? (bytes : ByteArray) : Option Nat :=
  match (records bytes).find? fun r =>
    match r with
    | none => true
    | some r => r.key == "size".toUTF8.toList with
  | some (some r) => (Text.Utf8.decode? ⟨r.value.toArray⟩).bind (Header.unsigned? 10)
  | _ => none

end CallCensus.Archive.Pax
