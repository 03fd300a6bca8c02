import CallCensus.Literal.Scan
import CallCensus.Text.Offsets

/-!
String literals, found by reading the bytes of a source text once from left to right.

The bytes that matter are those of quotes, backslashes and line feeds, each of which is
a character of its own. The reading goes from byte to byte, so the offsets that it comes
to may lie inside other characters.

* `closingAt?`: where the literal ends that starts at an offset;
* `Literal.stripByBytes?`: every literal is removed with its quotes.
-/

namespace CallCensus.Literal

open Text

/-- One round of looking for the quote that closes a literal. -/
def closingRound (bytes : ByteArray) (quote : UInt8) (i : Nat) : Round Nat (Option Nat) :=
  match bytes[i]? with
  | none => .stop none
  | some b =>
    if b = quote then .stop (some (i + 1))
    else if b = '\n'.toUInt8 then .stop none
    else if b = '\\'.toUInt8 then
      if bytes[i + 1]? = none ∨ bytes[i + 1]? = some '\n'.toUInt8 then .stop none
      else .goOn (i + 2)
    else .goOn (i + 1)

/-- The offset behind the literal that starts at `start`, or none if the literal is not
closed on its line. -/
def closingAt? (bytes : ByteArray) (start : Nat) : Option (Option Nat) :=
  match bytes[start]? with
  | none => none
  | some quote => loop (closingRound bytes quote) (start + 1)

/-- What the removal of literals does at an offset. -/
def spotAt? (bytes : ByteArray) (i : Nat) : Option Spot :=
  match bytes[i]? with
  | none => none
  | some b =>
    if b = '"'.toUInt8 ∨ b = '\''.toUInt8 ∨ b = backquote.toUInt8 then
      (closingAt? bytes i).map fun close => close.elim (.keep (i + 1)) .cut
    else some (.keep (i + 1))

/-- A source text without its literals. -/
def stripByBytes? (text : String) : Option String :=
  loop (Pass.round text "" (spotAt? text.toUTF8)) .start

end CallCensus.Literal
