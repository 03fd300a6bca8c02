import CallCensus.Loop
import Mathlib.Logic.Relation
import Mathlib.Tactic.Common

/-!
Loops that go round until they come to a result.

A loop whose every round moves a cursor on, which has to stay before a bound, does not go on for
ever. So it comes to what its rounds come to, one after the other; where it comes to a result, no
round on the way fails.

* `Advances`: every round that goes on moves a cursor on;
* `Advances.loop_goOn`, `Advances.loop_stop`, `Advances.loop_skip`: the first rounds;
* `Advances.of_loop`: what holds of the result;
* `Settles`, `Advances.exists_settles`: a loop that advances and comes to a result, with no round on
  the way that fails.
-/

namespace CallCensus

open Relation

variable {σ ρ : Type} {round : σ → Round σ ρ} {cursor : σ → ℕ} {bound : ℕ} {s t : σ} {r : ρ}

/-- A round that goes on has the cursor before the bound and moves it on. -/
def Advances (round : σ → Round σ ρ) (cursor : σ → ℕ) (bound : ℕ) : Prop :=
  ∀ s t, round s = .goOn t → cursor s < bound ∧ cursor s < cursor t

/-- One round goes on with the next one. -/
def Leads (round : σ → Round σ ρ) (s t : σ) : Prop :=
  round s = .goOn t

/-- A loop comes to a result: its cursor moves on with every round, and no round fails. -/
structure Settles (round : σ → Round σ ρ) (cursor : σ → ℕ) (bound : ℕ) (s : σ) (r : ρ) : Prop where
  advances : Advances round cursor bound
  ne_fail : ∀ t, ReflTransGen (Leads round) s t → round t ≠ .fail
  loop_eq : loop round s = some r

namespace Advances

variable (h : Advances round cursor bound)

include h

/-- There are only so many rounds: what is left before the bound gets less with each. -/
lemma wellFounded : WellFounded fun t s => round s = .goOn t := by
  refine Subrelation.wf (fun {t s} hround => ?_) (measure fun s => bound - cursor s).wf
  obtain ⟨hbound, hcursor⟩ := h s t hround
  exact Nat.sub_lt_sub_left hbound hcursor

lemma loop_eq (s : σ) : loop round s = match round s with
    | .goOn t => loop round t
    | .stop r => some r
    | .fail => none := by
  rw [loop, WellFounded.extrinsicFix_eq_apply h.wellFounded]
  split <;> simp_all [loop]

lemma loop_goOn (hround : round s = .goOn t) : loop round s = loop round t := by
  rw [h.loop_eq, hround]

lemma loop_stop (hround : round s = .stop r) : loop round s = some r := by
  rw [h.loop_eq, hround]

/-- Rounds that only lead to the next place can be left out. -/
lemma loop_skip (place : ℕ → σ) {n : ℕ} (i : ℕ)
    (hplace : ∀ k < n, round (place (i + k)) = .goOn (place (i + k + 1))) :
    loop round (place i) = loop round (place (i + n)) := by
  induction n with
  | zero => rfl
  | succ n ih =>
      rw [ih fun k hk => hplace k (Nat.lt_succ_of_lt hk)]
      exact h.loop_goOn (hplace n (Nat.lt_succ_self n))

/-- What the result of a loop has to do with a place it has to do with every earlier place. -/
lemma of_loop {P : ℕ → ρ → Prop} (hstop : ∀ s r, round s = .stop r → P (cursor s) r)
    (hearlier : ∀ i j r, i < j → P j r → P i r) (hloop : loop round s = some r) :
    P (cursor s) r := by
  induction s using h.wellFounded.induction with
  | h s ih =>
      rw [h.loop_eq] at hloop
      cases hround : round s with
      | goOn t =>
          rw [hround] at hloop
          exact hearlier _ _ r (h s t hround).2 (ih t hround hloop)
      | stop result =>
          rw [hround] at hloop
          cases hloop
          exact hstop s _ hround
      | fail =>
          rw [hround] at hloop
          cases hloop

/-- A loop comes to the same from each of its rounds. -/
lemma loop_eq_of_leads (hreach : ReflTransGen (Leads round) s t) :
    loop round s = loop round t := by
  induction hreach with
  | refl => rfl
  | tail _ hstep ih => rw [ih, h.loop_goOn hstep]

/-- Where a loop comes to a result, no round on the way fails. -/
lemma settles (hloop : loop round s = some r) : Settles round cursor bound s r where
  advances := h
  ne_fail := fun t hreach hfail => by
    rw [h.loop_eq_of_leads hreach, h.loop_eq, hfail] at hloop
    cases hloop
  loop_eq := hloop

/-- A loop without a round that fails comes to a result. -/
lemma exists_settles (hfail : ∀ s, round s ≠ .fail) (s : σ) :
    ∃ r, Settles round cursor bound s r := by
  induction s using h.wellFounded.induction with
  | h s ih =>
      cases hround : round s with
      | goOn t =>
          obtain ⟨r, hr⟩ := ih t hround
          exact ⟨r, h.settles ((h.loop_goOn hround).trans hr.loop_eq)⟩
      | stop r => exact ⟨r, h.settles (h.loop_stop hround)⟩
      | fail => exact absurd hround (hfail s)

end Advances

end CallCensus
