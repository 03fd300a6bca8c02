import CallCensus.Text.Offsets

/-!
Comments, found by reading the bytes of a source text once from left to right.

The bytes that matter are those of quotes, backslashes, slashes, asterisks and line
breaks, each of which is a character of its own. The reading goes from byte to byte, so
the offsets that it comes to may lie inside other characters.

* `closingAt?`, `lineEndAt?`, `blockEndAt?`: where the token ends that starts at an
  offset;
* `Comment.stripByBytes?`: every comment becomes one space.
-/

namespace CallCensus.Comment

open Text

/-- One round of looking for the quote that closes a quoted span. -/
def closingRound (bytes : ByteArray) (quote : UInt8) (i : Nat) : Round Nat (Option Nat) :=
  match bytes[i]? with
  | none => .stop none
  | some b =>
    if b = '\\'.toUInt8 then .goOn (i + 2)
    else if b = quote then .stop (some (i + 1))
    else .goOn (i + 1)

/-- The offset behind the quoted span that starts at `start`, or none if the span is
never closed. -/
def closingAt? (bytes : ByteArray) (start : Nat) : Option (Option Nat) :=
  match bytes[start]? with
  | none => none
  | some quote => loop (closingRound bytes quote) (start + 1)

/-- One round of looking for the line break that ends a line comment. -/
def lineEndRound (bytes : ByteArray) (i : Nat) : Round Nat Nat :=
  match bytes[i]? with
  | none => .stop bytes.size
  | some b =>
    if b = '\\'.toUInt8 then
      if bytes[i + 1]? = some '\r'.toUInt8 ∧ bytes[i + 2]? = some '\n'.toUInt8 then
        .goOn (i + 3)
      else if bytes[i + 1]? = some '\n'.toUInt8 then .goOn (i + 2)
      else .goOn (i + 1)
    else if b = '\n'.toUInt8 then .stop i
    else if b = '\r'.toUInt8 ∧ bytes[i + 1]? = some '\n'.toUInt8 then .stop i
    else .goOn (i + 1)

/-- The offset of the line break, or of the end of the text, where the line comment ends
that starts at `start`. -/
def lineEndAt? (bytes : ByteArray) (start : Nat) : Option Nat :=
  loop (lineEndRound bytes) (start + 2)

/-- The offset behind the block comment that starts at `start`, or none if the comment is
never closed. -/
def blockEndAt? (text : String) (start : Nat) : Option (Option Nat) :=
  (slice? text (start + 2) text.utf8ByteSize).map fun inner =>
    (inner.find? "*/").map fun close => start + 2 + close.offset.byteIdx + 2

/-- What the removal of comments does at an offset. -/
def spotAt? (text : String) (bytes : ByteArray) (i : Nat) : Option Spot :=
  match bytes[i]? with
  | none => none
  | some b =>
    if b = '"'.toUInt8 ∨ b = '\''.toUInt8 then
      (closingAt? bytes i).map fun close => .keep (close.getD (i + 1))
    else if b = '/'.toUInt8 ∧ bytes[i + 1]? = some '*'.toUInt8 then
      (blockEndAt? text i).map fun close => close.elim (.keep (i + 1)) .cut
    else if b = '/'.toUInt8 ∧ bytes[i + 1]? = some '/'.toUInt8 then
      (lineEndAt? bytes i).map .cut
    else some (.keep (i + 1))

/-- A source text with every comment replaced by one space. -/
def stripByBytes? (text : String) : Option String :=
  loop (Pass.round text " " (spotAt? text text.toUTF8)) .start

end CallCensus.Comment
