import CallCensus.Archive.Fault
import CallCensus.Archive.Gzip
import CallCensus.Archive.Pax
import CallCensus.Archive.Sparse
import CallCensus.FileTree

/-!
The contents of an archive: its members in order, up to its end or to the first fault.

Some members only describe the member after them: they give it a long name, or an
extended header. An archive ends at a block of zeros, or where its data ends properly
between two members.

* `Entry`, `Contents`: what a reader of an archive sees;
* `Contents.ofStream`: the contents of decompressed data;
* `Contents.open?`: the contents of the archive at a path.
-/

namespace CallCensus.Archive

/-- A member of an archive. -/
structure Entry where
  /-- Whether it is a regular file. -/
  regular : Bool
  /-- Its path. -/
  path : Except Fault String
  /-- Its data. -/
  data : Except Fault ByteArray

/-- The members of an archive, up to its end or to the first fault. -/
structure Contents where
  entries : List Entry
  /-- What ends the contents early, if anything. -/
  fault : Option Fault

namespace Stream

/-- The fault of a reader that wants more bytes than there are. -/
def endFault (s : Stream) : Fault :=
  if s.endsWell then .header else .compression

/-- The bytes of a member's data. Where the stream ends properly they may be fewer. -/
def read (s : Stream) (pos size : Nat) : Except Fault ByteArray :=
  if s.bytes.size < pos + size ∧ !s.endsWell then .error .compression
  else .ok (s.bytes.extract pos (pos + size))

/-- The header at a position, or `none` at the end of the archive. -/
def header (s : Stream) (pos : Nat) : Except Fault (Option Header) :=
  if pos + blockSize ≤ s.bytes.size then
    let h : Header := ⟨s.bytes.extract pos (pos + blockSize)⟩
    if h.isZero then .ok none else if h.sumFits then .ok (some h) else .error .header
  else if pos = s.bytes.size ∧ s.endsWell then .ok none
  else .error s.endFault

end Stream

/-- What the members before the present one say about it. -/
structure Description where
  longName : Option ByteArray
  longLink : Bool
  extended : Option ByteArray

namespace Description

/-- Nothing is said. -/
def nothing : Description :=
  ⟨none, false, none⟩

/-- Whether nothing is said. -/
def isNothing (d : Description) : Bool :=
  d.longName.isNone && !d.longLink && d.extended.isNone

/-- The name of a member: its long name, else the path of its extended header, else the
name in its own header. -/
def nameOf (d : Description) (h : Header) : ByteArray :=
  match d.longName with
  | some bytes =>
    if bytes[bytes.size - 1]? = some 0 then bytes.extract 0 (bytes.size - 1) else bytes
  | none => (d.extended.bind Pax.path?).getD h.name

/-- The size of a member: that of its extended header, else that in its own header. -/
def sizeOf? (d : Description) (h : Header) : Option Nat :=
  h.size?.map fun size => (d.extended.bind Pax.size?).getD size

end Description

/-- What a reader comes to where a header should be. -/
inductive Found where
  /-- The end of the archive. -/
  | nothing
  | fault (f : Fault)
  /-- A member that only describes the one at `next`. -/
  | description (d : Description) (next : Nat)
  /-- A member in its own right, with the next one at `next`. -/
  | entry (e : Entry) (next : Nat)

/-- The position of the block after `size` bytes, unless it has more than 64 bits. -/
def after? (pos size : Nat) : Option Nat :=
  let next := pos + (size + (blockSize - 1)) / blockSize * blockSize
  if size + (blockSize - 1) < 1 <<< 64 ∧ next < 1 <<< 64 then some next else none

namespace Stream

/-- A member whose data says something about the next one, unless that was `said` already. -/
def description (s : Stream) (said : Bool) (start size next : Nat)
    (add : ByteArray → Description) : Found :=
  if said then .fault .header
  else
    match s.read start size with
    | .error f => .fault f
    | .ok bytes => .description (add bytes) next

/-- The member whose header is `h` and whose data starts at a position, where `d` is what was
said about it. -/
def member (s : Stream) (d : Description) (h : Header) (start size next : Nat) : Found :=
  let described := h.isGnu || h.isUstar
  if described && h.kind == 'L' then
    s.description d.longName.isSome start size next fun bytes => { d with longName := some bytes }
  else if described && h.kind == 'K' then
    s.description d.longLink start size next fun _ => { d with longLink := true }
  else if described && h.kind == 'x' then
    s.description d.extended.isSome start size next fun bytes => { d with extended := some bytes }
  else
    let path := String.ofList (Text.Utf8.decodeLossy (d.nameOf h))
    let entry : Entry := ⟨h.isRegular, .ok path, s.read start size⟩
    if h.kind == 'S' then
      match Sparse.check? h s.bytes size start with
      | none => .fault .header
      | some more => .entry entry (next + more)
    else .entry entry next

/-- What comes at a position, where `d` is what was said about it. -/
def found (s : Stream) (d : Description) (pos : Nat) : Found :=
  match s.header pos with
  | .error f => .fault f
  | .ok none => if d.isNothing then .nothing else .fault .header
  | .ok (some h) =>
    let start := pos + blockSize
    match d.sizeOf? h with
    | none => .fault .header
    | some size =>
      match after? start size with
      | none => .fault .header
      | some next => s.member d h start size next

end Stream

namespace Contents

/-- The members from a position on, after those in `done`, which are in reverse order.
At most `steps` headers are read. -/
def entriesOnto (s : Stream) (done : List Entry) : (steps : Nat) → Description → Nat → Contents
  | 0, _, _ => ⟨done.reverse, some s.endFault⟩
  | steps + 1, d, pos =>
    match s.found d pos with
    | .nothing => ⟨done.reverse, none⟩
    | .fault f => ⟨done.reverse, some f⟩
    | .description d next => entriesOnto s done steps d next
    | .entry e next => entriesOnto s (e :: done) steps .nothing next

/-- The contents of decompressed data. -/
def ofStream (s : Stream) : Contents :=
  entriesOnto s [] (s.bytes.size / blockSize + 1) .nothing 0

/-- The contents of the archive at a path. A directory can be opened, but it holds
nothing that can be read. -/
def open? (tree : FileTree) (path : String) : Except FileProblem Contents :=
  match tree.look path with
  | .error e => .error e
  | .ok .directory => .ok ⟨[], some .directory⟩
  | .ok (.file bytes) => .ok (ofStream (.ofGzip bytes))

end Contents

end CallCensus.Archive
