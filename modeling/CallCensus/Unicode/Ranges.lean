/-!
Sets of characters given by a sorted table.

* `rankBy`: how many entries of a sorted table are at most a given number, by
  repeated halving;
* `Ranges`: a set of code points given by its boundaries, the points where
  membership changes. A code point is inside when an odd number of boundaries is
  at most it;
* `Ranges.contains`: membership.
-/

namespace CallCensus.Unicode

variable {α : Type}

/-- The place where `c` belongs between `lo` and `hi` in a table sorted by `key`,
found in at most `steps` halvings. -/
def rankWithin (key : α → Nat) (table : Array α) (c : Nat) : Nat → Nat → Nat → Nat
  | 0, lo, _ => lo
  | steps + 1, lo, hi =>
    if lo < hi then
      match table[(lo + hi) / 2]? with
      | none => lo
      | some entry =>
        if key entry ≤ c then rankWithin key table c steps ((lo + hi) / 2 + 1) hi
        else rankWithin key table c steps lo ((lo + hi) / 2)
    else lo

/-- The number of entries of a table sorted by `key` whose key is at most `c`. -/
def rankBy (key : α → Nat) (table : Array α) (c : Nat) : Nat :=
  rankWithin key table c (table.size.log2 + 1) 0 table.size

/-- A set of code points, given by the increasing list of the points where
membership changes: the first range starts at the first entry and ends before the
second, and so on. -/
structure Ranges where
  /-- The points where membership changes, in increasing order. -/
  boundaries : Array Nat

/-- Whether a code point lies in one of the ranges. -/
def Ranges.contains (r : Ranges) (c : Nat) : Bool :=
  rankBy id r.boundaries c % 2 == 1

/-- Whether a character lies in one of the ranges. -/
def Ranges.containsChar (r : Ranges) (c : Char) : Bool :=
  r.contains c.toNat

end CallCensus.Unicode
