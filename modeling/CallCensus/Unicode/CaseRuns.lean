import CallCensus.Unicode.Ranges

/-!
Character maps that shift whole runs of letters by a constant.

Scripts with two cases list their letters either in two blocks, one per case, or
in alternation. Both layouts are runs: every character, or every second one,
between two ends moves by the same distance.
-/

namespace CallCensus.Unicode

/-- The letters `first`, `first + stride`, … up to `last`, each of which moves by
`shift`. -/
structure CaseRun where
  first : Nat
  last : Nat
  stride : Nat
  shift : Int

/-- The image of a code point under a run, when the run moves it. -/
def CaseRun.image? (r : CaseRun) (c : Nat) : Option Nat :=
  if r.first ≤ c ∧ c ≤ r.last ∧ (c - r.first) % r.stride = 0 then some (c + r.shift).toNat
  else none

/-- A character map given by disjoint runs in increasing order. -/
structure CaseRuns where
  runs : Array CaseRun

/-- The image of a character: shifted by the run that holds it, and itself when
none does. -/
def CaseRuns.apply (m : CaseRuns) (c : Char) : Char :=
  match m.runs[rankBy CaseRun.first m.runs c.toNat - 1]? with
  | none => c
  | some r => ((r.image? c.toNat).map Char.ofNat).getD c

end CallCensus.Unicode
