import CallCensus.Loop

/-!
Reading a text at offsets in its bytes.

A place in a text is given by the number of bytes before it. Bytes can be looked at
anywhere, but a part can be cut out only between two places where characters end.

* `slice?`: the part of a text between two offsets;
* `Pass.round`: one round of a pass over a text in which parts of it give way to a mark.
-/

namespace CallCensus.Text

/-- The part of a text from one offset to another, unless one of them is inside a
character or behind the end, or the second one before the first. -/
def slice? (text : String) (first last : Nat) : Option String :=
  if h : first ≤ last ∧ (⟨first⟩ : String.Pos.Raw).IsValid text ∧
      (⟨last⟩ : String.Pos.Raw).IsValid text then
    some (text.slice ⟨⟨first⟩, h.2.1⟩ ⟨⟨last⟩, h.2.2⟩ h.1).copy
  else none

/-- What a pass over a text does at an offset. -/
inductive Spot where
  /-- The text before `next` stays. -/
  | keep (next : Nat)
  /-- The text before `next` goes. -/
  | cut (next : Nat)
deriving DecidableEq

/-- How far a pass over a text has come. -/
structure Pass where
  /-- What is left of the text before `last`. -/
  out : String
  /-- The offset where the last part that went ends. -/
  last : Nat
  /-- The offset that comes next. -/
  cursor : Nat

namespace Pass

/-- A pass that has done nothing yet. -/
def start : Pass :=
  ⟨"", 0, 0⟩

/-- One round of the pass in which every part that goes leaves `mark`, where `spotAt?`
says what is done at an offset. -/
def round (text mark : String) (spotAt? : Nat → Option Spot) (p : Pass) : Round Pass String :=
  if p.cursor < text.utf8ByteSize then
    match spotAt? p.cursor with
    | none => .fail
    | some (.keep next) => .goOn { p with cursor := next }
    | some (.cut next) =>
      match slice? text p.last p.cursor with
      | none => .fail
      | some kept => .goOn ⟨p.out ++ kept ++ mark, next, next⟩
  else
    match slice? text p.last text.utf8ByteSize with
    | none => .fail
    | some kept => .stop (p.out ++ kept)

end Pass

end CallCensus.Text
