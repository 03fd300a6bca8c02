import CallCensus.Pattern.Machine

/-!
Searching a text for a pattern.

A search tries one place after the other until there is a match. How often it may go back
counts for all these places together, and giving up a place to try the next one is going
back as well. After a match, a new search begins where that ends. Giving up says nothing
about the text.

* `attempt`: a match at one place;
* `segments?`: all matches in a text, leftmost first and without overlap, and the
  characters between them.
-/

namespace CallCensus.Pattern

/-- A match of `p` that starts at a given place, in a search that can go back `left` more
times. -/
def attempt (p : Pattern) (left : Nat) (before : Option Char) (s : Text) : Attempt :=
  Machine.run left ⟨⟨[.find p], .start before s, 0⟩, [], 0⟩

/-- A match in a text. -/
structure Match where
  /-- The text that was matched. -/
  text : Text
  /-- What the groups have matched. -/
  groups : List (Nat × Span)

/-- What the group numbered `n` has matched. -/
def Match.group? (m : Match) (n : Nat) : Option Text :=
  (m.groups.lookup n).map Span.text

/-- A part of a searched text: a match, or a character that starts none. -/
inductive Segment where
  | plain (c : Char)
  | hit (m : Match)

/-- The segments of a text whose part before is cut into `done`, which is in reverse
order, in a search that can go back `left` more times. A match has at least one
character. -/
def segmentsOnto? (p : Pattern) (limit left : Nat) (done : List Segment)
    (before : Option Char) : Text → Option (List Segment)
  | [] =>
    match attempt p left before [] with
    | .gaveUp => none
    | .failed 0 => none
    | _ => some done.reverse
  | c :: rest =>
    match attempt p left before (c :: rest) with
    | .gaveUp => none
    | .failed 0 => none
    | .failed (left + 1) => segmentsOnto? p limit left (.plain c :: done) (some c) rest
    | .matched final =>
      if final.taken = 0 then segmentsOnto? p limit limit (.plain c :: done) (some c) rest
      else
        segmentsOnto? p limit limit
          (.hit ⟨c :: rest.take (final.taken - 1), final.groups⟩ :: done)
          final.before (rest.drop (final.taken - 1))
termination_by s => s.length
decreasing_by all_goals simp only [List.length_drop, List.length_cons]; omega

/-- The matches in a text, leftmost first and without overlap, and the characters
between them; `none` when a search gives up. Each search may go back `limit` times. -/
def segments? (p : Pattern) (limit : Nat) (s : Text) : Option (List Segment) :=
  segmentsOnto? p limit limit [] none s

end CallCensus.Pattern
