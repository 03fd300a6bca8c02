import CallCensus.Pattern.Basic

/-!
What a pattern means.

`Pattern.ends p here` lists the places where a match of `p` that starts at `here`
may end, in the order in which a backtracking search comes to them. The match of a
search is the first of them, and a search fails when there is none. Repetitions
that take no character are left out, so the list is finite. `Pattern.occursIn` tells
whether there is a match at all, anywhere in a text.
-/

namespace CallCensus.Pattern

/-- The ends of the repetitions of `step`, longer ones first. -/
def manyEnds (step : Cursor → List Cursor) (here : Cursor) : List Cursor :=
  ((step here).flatMap fun there =>
    if there.rest.length < here.rest.length then manyEnds step there else []) ++ [here]
termination_by here.rest.length

/-- The ends of the repetitions of `step`, shorter ones first. -/
def fewEnds (step : Cursor → List Cursor) (here : Cursor) : List Cursor :=
  here :: (step here).flatMap fun there =>
    if there.rest.length < here.rest.length then fewEnds step there else []
termination_by here.rest.length

/-- The places where a match that starts at `here` may end, in order of
preference. -/
def ends : Pattern → Cursor → List Cursor
  | one ok, here => (here.next? ok).toList
  | empty, here => [here]
  | seq p q, here => (p.ends here).flatMap q.ends
  | alt p q, here => p.ends here ++ q.ends here
  | many p, here => manyEnds p.ends here
  | few p, here => fewEnds p.ends here
  | textStart, here => if here.before.isNone then [here] else []
  | textEnd, here => if here.rest.isEmpty then [here] else []
  | ahead p, here => (p.ends here).head?.toList.map fun there => { here with groups := there.groups }
  | commit p, here => (p.ends here).head?.toList
  | notAfter ok, here => if here.before.any ok then [] else [here]
  | group n p, here => (p.ends here).map fun there => there.close n here
  | same n, here => (here.afterGroup? n).toList

/-- The longest repetitions come first. -/
theorem ends_many (p : Pattern) (here : Cursor) :
    (many p).ends here = ((p.ends here).flatMap fun there =>
      if there.rest.length < here.rest.length then (many p).ends there else []) ++ [here] := by
  simp only [ends]
  rw [manyEnds]

/-- The shortest repetitions come first. -/
theorem ends_few (p : Pattern) (here : Cursor) :
    (few p).ends here = here :: (p.ends here).flatMap fun there =>
      if there.rest.length < here.rest.length then (few p).ends there else [] := by
  simp only [ends]
  rw [fewEnds]

/-- Whether a match of a pattern starts somewhere in a text that comes after the character
`before`, if there is one. -/
def occursAfter (p : Pattern) (before : Option Char) : Text → Bool
  | [] => !(p.ends (.start before [])).isEmpty
  | c :: rest =>
    !(p.ends (.start before (c :: rest))).isEmpty || p.occursAfter (some c) rest

/-- Whether there is a match of a pattern in a text. -/
def occursIn (p : Pattern) (s : Text) : Bool :=
  p.occursAfter none s

end CallCensus.Pattern
