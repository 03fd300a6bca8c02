import CallCensus.Pattern.Basic

/-!
Patterns as they are written.

In a written pattern most characters stand for themselves. Some are signs, and stand for
themselves only after a backslash. The signs that are read here are those for any character,
for the two ends of the text, for alternatives, for groups and for repetitions; a text that
is written with others is refused.

* `escape`: a text written so that every character stands for itself;
* `tokens?`: what the characters of a written pattern are;
* `read?`: the pattern that is written.
-/

namespace CallCensus.Pattern

/-- The characters that are written with a backslash when they stand for themselves. -/
def signs : List Char :=
  ['\\', '.', '+', '*', '?', '(', ')', '|', '[', ']', '{', '}', '^', '$', '#', '&', '-', '~']

/-- A text written as a pattern in which every character stands for itself. -/
def escape (s : Text) : Text :=
  s.flatMap fun c => if signs.contains c then ['\\', c] else [c]

/-- What a character of a written pattern is. -/
inductive Token where
  /-- It stands for itself. -/
  | letter (c : Char)
  | anyButNewline
  | textStart
  | textEnd
  | bar
  | opening
  | closing
  | star
  | plus
  | mark

/-- What a character is that has no backslash before it. Signs for classes of characters,
and for repetitions a given number of times, are not read. -/
def token? (c : Char) : Option Token :=
  match c with
  | '.' => some .anyButNewline
  | '^' => some .textStart
  | '$' => some .textEnd
  | '|' => some .bar
  | '(' => some .opening
  | ')' => some .closing
  | '*' => some .star
  | '+' => some .plus
  | '?' => some .mark
  | '[' | '{' | '\\' => none
  | c => some (.letter c)

/-- What the characters of a written pattern are. A backslash before another character than
a sign is not read. -/
def tokens? : Text → Option (List Token)
  | [] => some []
  | '\\' :: c :: rest =>
    if signs.contains c then (tokens? rest).map (.letter c :: ·) else none
  | c :: rest =>
    match token? c with
    | none => none
    | some t => (tokens? rest).map (t :: ·)

/-- What was read of a written pattern since the last bracket that is still open, the
latest first. -/
structure Level where
  /-- The alternatives before the present one. -/
  before : List Pattern
  /-- The parts of the present alternative. -/
  parts : List Pattern
  /-- Whether the last part may be repeated: it is no repetition yet. -/
  repeatable : Bool

namespace Level

/-- Nothing was read yet. -/
def start : Level :=
  ⟨[], [], false⟩

/-- One more part. -/
def add (l : Level) (p : Pattern) : Level :=
  ⟨l.before, p :: l.parts, true⟩

/-- The present alternative is over. -/
def bar (l : Level) : Level :=
  ⟨sequence l.parts.reverse :: l.before, [], false⟩

/-- The last part is repeated. -/
def again? (f : Pattern → Pattern) (l : Level) : Option Level :=
  match l.parts with
  | p :: parts => if l.repeatable then some ⟨l.before, f p :: parts, false⟩ else none
  | [] => none

/-- All that was read. -/
def pattern (l : Level) : Pattern :=
  l.before.foldl (fun q p => alt p q) (sequence l.parts.reverse)

end Level

/-- The pattern that is written on from a level, inside of those in `outer`. -/
def readFrom? (letter : Char → Pattern) (l : Level) (outer : List Level) :
    List Token → Option Pattern
  | [] =>
    match outer with
    | [] => some l.pattern
    | _ :: _ => none
  | .letter c :: rest => readFrom? letter (l.add (letter c)) outer rest
  | .anyButNewline :: rest => readFrom? letter (l.add (noneOf ['\n'])) outer rest
  | .textStart :: rest => readFrom? letter (l.add textStart) outer rest
  | .textEnd :: rest => readFrom? letter (l.add textEnd) outer rest
  | .bar :: rest => readFrom? letter l.bar outer rest
  | .opening :: rest => readFrom? letter .start (l :: outer) rest
  | .closing :: rest =>
    match outer with
    | [] => none
    | l' :: outer => readFrom? letter (l'.add l.pattern) outer rest
  | .star :: rest =>
    match l.again? many with
    | none => none
    | some l => readFrom? letter l outer rest
  | .plus :: rest =>
    match l.again? manyOne with
    | none => none
    | some l => readFrom? letter l outer rest
  | .mark :: rest =>
    match l.again? optional with
    | none => none
    | some l => readFrom? letter l outer rest

/-- The pattern that a text writes, with the pattern of each character that stands for
itself. -/
def read? (letter : Char → Pattern) (s : Text) : Option Pattern :=
  match tokens? s with
  | none => none
  | some tokens => readFrom? letter .start [] tokens

end CallCensus.Pattern
