import CallCensus.CallSite.Scan
import CallCensus.Text.Offsets

/-!
Call sites of an operator, found by cutting a text at offsets in its bytes.

* `Count.round`: the next occurrence of the name, whether it is a call site, and where
  the reading goes on;
* `CallSite.countByBytes?`: the number of call sites.
-/

namespace CallCensus.CallSite

open Text

/-- How far a count of call sites has come. -/
structure Count where
  /-- The number of call sites before `cursor`. -/
  total : Nat
  /-- The offset that comes next. -/
  cursor : Nat

/-- What comes of the occurrence of the name between two offsets: a call site and the
offset behind its bracket, or the offset behind the first character of the name. -/
def Count.next? (text : String) (total first last : Nat) : Option Count := do
  let behind ← slice? text last text.utf8ByteSize
  let before ← slice? text 0 first
  let rest := (behind.dropWhile Unicode.isBlank).copy
  if !before.back?.any isNameCharacter && rest.startsWith isOpening then
    return ⟨total + 1, text.utf8ByteSize - rest.utf8ByteSize + 1⟩
  else
    let found ← slice? text first text.utf8ByteSize
    return ⟨total, first + (found.front?.map Char.utf8Size).getD 1⟩

/-- One round of a count of call sites. -/
def Count.round (operator text : String) (c : Count) : Round Count Nat :=
  match slice? text c.cursor text.utf8ByteSize with
  | none => .fail
  | some rest =>
    match rest.find? operator with
    | none => .stop c.total
    | some found =>
      let first := c.cursor + found.offset.byteIdx
      match next? text c.total first (first + operator.utf8ByteSize) with
      | none => .fail
      | some next => .goOn next

/-- The number of call sites of `operator` in a text. An empty name has none. -/
def countByBytes? (operator text : String) : Option Nat :=
  if operator.isEmpty then some 0 else loop (Count.round operator text) ⟨0, 0⟩

end CallCensus.CallSite
