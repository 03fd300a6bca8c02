/-!
Loops that go round until they come to a result.

A round starts from what the loop keeps from round to round. It goes on with something
else, ends the loop, or fails.

* `Round`: what a round comes to;
* `loop`: what the rounds come to together.
-/

namespace CallCensus

variable {σ ρ : Type}

/-- What one round of a loop comes to, where the loop keeps a `σ` and looks for a `ρ`. -/
inductive Round (σ ρ : Type) where
  /-- The next round starts from `next`. -/
  | goOn (next : σ)
  /-- The loop ends. -/
  | stop (result : ρ)
  /-- The round cannot be carried out. -/
  | fail

/-- What a loop comes to from `s`, if it ends at all: nothing where a round fails. That
it ends is not part of the definition. -/
def loop (round : σ → Round σ ρ) (s : σ) : Option ρ :=
  WellFounded.extrinsicFix (fun next s => round s = .goOn next)
    (fun s again =>
      match h : round s with
      | .goOn next => again next h
      | .stop result => some result
      | .fail => none) s

end CallCensus
