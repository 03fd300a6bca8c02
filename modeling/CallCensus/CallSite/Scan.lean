import CallCensus.Text.Basic

/-!
Call sites of an operator, found by reading a text once from left to right.

A call site is the operator's name, not preceded by a letter, a number or `_`,
followed by an opening parenthesis or brace, with white space between them allowed.
After a call site the reading goes on behind the bracket, and after an occurrence of
the name that is no call site one character on.
-/

namespace CallCensus.CallSite

/-- The characters that a name cannot start after. -/
def isNameCharacter (c : Char) : Bool :=
  Unicode.isAlphanumeric c || c == '_'

/-- The brackets that open an argument list or a trailing block. -/
def isOpening (c : Char) : Bool :=
  c == '(' || c == '\x7b'

/-- The length of the white space and bracket that follow the name at a call site;
`n` characters are already counted. -/
def openingEnd? : (s : Text) → (n : Nat) → Option Nat
  | [], _ => none
  | c :: rest, n =>
    if Unicode.isBlank c then openingEnd? rest (n + 1)
    else if isOpening c then some (n + 1) else none

/-- The length of the call site of `operator` at the start of a text that follows the
character `before`. -/
def siteLength? (operator : Text) (before : Option Char) (s : Text) : Option Nat :=
  match Text.after? operator s with
  | none => none
  | some rest =>
    if before.any isNameCharacter then none else openingEnd? rest operator.length

/-- The number of call sites of `operator` in a text that follows `before`, added to
`total`. -/
def countFrom (operator : Text) (before : Option Char) (total : Nat) : Text → Nat
  | [] => total
  | c :: rest =>
    match siteLength? operator before (c :: rest) with
    | none => countFrom operator (some c) total rest
    | some n =>
      countFrom operator ((c :: rest)[n - 1]?) (total + 1) (rest.drop (n - 1))
termination_by s => s.length
decreasing_by all_goals simp only [List.length_drop, List.length_cons]; omega

/-- The number of call sites of `operator` in a text. An empty name has none. -/
def countByScan (operator s : Text) : Nat :=
  if operator.isEmpty then 0 else countFrom operator none 0 s

end CallCensus.CallSite
