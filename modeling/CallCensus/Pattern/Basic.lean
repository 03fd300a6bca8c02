import CallCensus.Text.Basic

/-!
Backtracking patterns over texts.

A pattern describes how a match may go on from a place in a text. Where there is a
choice (`alt`, `many`, `few`), the alternatives are tried in order, and a later
failure goes back to the latest choice that has one left: the first way that
succeeds is the match.

* `Pattern`: the patterns;
* `Cursor`: a place in a text during a match;
* `Span`: a part of the text that a group has matched.
-/

namespace CallCensus

/-- A pattern. -/
inductive Pattern where
  /-- One character of a class. -/
  | one (ok : Char → Bool)
  /-- Nothing: matches everywhere and takes no character. -/
  | empty
  /-- One pattern after another. -/
  | seq (p q : Pattern)
  /-- The first pattern or, failing that, the second. -/
  | alt (p q : Pattern)
  /-- A pattern any number of times, as often as possible first. -/
  | many (p : Pattern)
  /-- A pattern any number of times, as seldom as possible first. -/
  | few (p : Pattern)
  /-- The start of the text. -/
  | textStart
  /-- The end of the text. -/
  | textEnd
  /-- A pattern that must match here but takes nothing. -/
  | ahead (p : Pattern)
  /-- A pattern of which only the first way to match counts. -/
  | commit (p : Pattern)
  /-- A place where the character before, if there is one, is not of a class. -/
  | notAfter (ok : Char → Bool)
  /-- A pattern whose match is remembered under a number. -/
  | group (n : Nat) (p : Pattern)
  /-- What the group of that number has matched, once more. -/
  | same (n : Nat)

namespace Pattern

/-- One given character. -/
def char (c : Char) : Pattern :=
  one (· == c)

/-- Any character at all. -/
def any : Pattern :=
  one fun _ => true

/-- One character other than those listed. -/
def noneOf (cs : List Char) : Pattern :=
  one fun c => !cs.contains c

/-- One of the characters listed. -/
def oneOf (cs : List Char) : Pattern :=
  one fun c => cs.contains c

/-- One pattern after another, for any number of patterns. -/
def sequence : List Pattern → Pattern
  | [] => empty
  | [p] => p
  | p :: ps => seq p (sequence ps)

/-- The first pattern that matches. -/
def firstOf : Pattern → List Pattern → Pattern
  | p, [] => p
  | p, q :: qs => alt p (firstOf q qs)

/-- A given text. -/
def exactly (s : Text) : Pattern :=
  sequence (s.map char)

/-- A pattern, or nothing when it does not match. -/
def optional (p : Pattern) : Pattern :=
  alt p empty

/-- A pattern at least once, as often as possible first. -/
def manyOne (p : Pattern) : Pattern :=
  seq p (many p)

/-- A part of a text: the first `length` characters of `start`. -/
structure Span where
  start : Text
  length : Nat

/-- The characters of a span. -/
def Span.text (s : Span) : Text :=
  s.start.take s.length

/-- A place in a text during a match. -/
structure Cursor where
  /-- The character just before, if there is one. -/
  before : Option Char
  /-- The text from here on. -/
  rest : Text
  /-- How many characters the match has taken so far. -/
  taken : Nat
  /-- What the groups have matched so far, the latest first. -/
  groups : List (Nat × Span)

namespace Cursor

/-- The place where a match starts. -/
def start (before : Option Char) (rest : Text) : Cursor :=
  ⟨before, rest, 0, []⟩

/-- The place after the next character `c`, which leaves `rest`. -/
def advance (here : Cursor) (c : Char) (rest : Text) : Cursor :=
  { here with before := some c, rest := rest, taken := here.taken + 1 }

/-- The place after one character of a class. -/
def next? (ok : Char → Bool) (here : Cursor) : Option Cursor :=
  match here.rest with
  | [] => none
  | c :: rest => if ok c then some (here.advance c rest) else none

/-- The place after the first `length` characters of `s`, where they come next. -/
def afterCopy? (here : Cursor) : (s : Text) → (length : Nat) → Option Cursor
  | _, 0 => some here
  | [], _ + 1 => some here
  | c :: s, length + 1 =>
    match here.next? (· == c) with
    | none => none
    | some further => further.afterCopy? s length

/-- What the group numbered `n` has matched. -/
def group? (here : Cursor) (n : Nat) : Option Span :=
  here.groups.lookup n

/-- The place after a repetition of what group `n` has matched; a group that has
not matched repeats nowhere. -/
def afterGroup? (here : Cursor) (n : Nat) : Option Cursor :=
  match here.group? n with
  | none => none
  | some span => here.afterCopy? span.start span.length

/-- The same place, where group `n` has just matched everything since `opened`. -/
def close (here : Cursor) (n : Nat) (opened : Cursor) : Cursor :=
  { here with groups := (n, ⟨opened.rest, here.taken - opened.taken⟩) :: here.groups }

end Cursor

end Pattern

end CallCensus
