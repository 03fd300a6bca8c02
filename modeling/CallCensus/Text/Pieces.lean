/-!
Cutting a list into pieces.

A cut is described by what happens at the head: `step a rest` gives the piece that
starts at `a` and the number of further elements that it takes. The remaining
pieces are those of what is left, so every such description ends.

* `pieces`: all pieces, in order;
* `pieces_cons`: the piece at the head, then the pieces of what it leaves;
* `flatMap_pieces`: where every piece holds what it was cut from, nothing is lost;
* `pieces_flatMap_of_append`: the last pieces are those of the text that they make up.
-/

namespace CallCensus.Text

variable {α β : Type}

/-- What is left after the head and some further elements is shorter. -/
theorem length_drop_lt (a : α) (rest : List α) (k : Nat) :
    (rest.drop k).length < (a :: rest).length := by
  rw [List.length_drop, List.length_cons]
  omega

/-- The pieces of a list after those in `done`, which is in reverse order. -/
def piecesOnto (step : α → List α → β × Nat) (done : List β) : List α → List β
  | [] => done.reverse
  | a :: rest =>
    match step a rest with
    | (piece, taken) => piecesOnto step (piece :: done) (rest.drop taken)
termination_by s => s.length
decreasing_by exact length_drop_lt a rest taken

/-- The pieces into which `step` cuts a list. -/
def pieces (step : α → List α → β × Nat) (s : List α) : List β :=
  piecesOnto step [] s

theorem piecesOnto_eq (step : α → List α → β × Nat) (done : List β) (s : List α) :
    piecesOnto step done s = done.reverse ++ pieces step s := by
  suffices h : ∀ n (s : List α) (done : List β), s.length ≤ n →
      piecesOnto step done s = done.reverse ++ pieces step s from h s.length s done (Nat.le_refl _)
  intro n
  induction n with
  | zero =>
    intro s done hs
    obtain rfl : s = [] := List.length_eq_zero_iff.1 (by omega)
    simp [pieces, piecesOnto]
  | succ n ih =>
    intro s done hs
    cases s with
    | nil => simp [pieces, piecesOnto]
    | cons a rest =>
      have hlen : (rest.drop (step a rest).2).length ≤ n := by
        simp only [List.length_drop, List.length_cons] at *; omega
      rw [pieces, piecesOnto, piecesOnto]
      change piecesOnto step ((step a rest).1 :: done) (rest.drop (step a rest).2) =
        done.reverse ++ piecesOnto step [(step a rest).1] (rest.drop (step a rest).2)
      rw [ih _ _ hlen, ih _ _ hlen]
      simp

@[simp] theorem pieces_nil (step : α → List α → β × Nat) : pieces step [] = [] := by
  simp [pieces, piecesOnto]

/-- The first piece starts at the head, and the others are those of what it leaves. -/
theorem pieces_cons (step : α → List α → β × Nat) (a : α) (rest : List α) :
    pieces step (a :: rest) = (step a rest).1 :: pieces step (rest.drop (step a rest).2) := by
  rw [pieces, piecesOnto]
  exact piecesOnto_eq step [(step a rest).1] _

/-- If every piece still has the elements that it was cut from, the pieces together have
those of the list. -/
theorem flatMap_pieces {step : α → List α → β × Nat} {source : β → List α}
    (h : ∀ a rest, source (step a rest).1 = a :: rest.take (step a rest).2) :
    ∀ s : List α, (pieces step s).flatMap source = s
  | [] => by simp
  | a :: rest => by
    rw [pieces_cons, List.flatMap_cons, h, flatMap_pieces h (rest.drop (step a rest).2),
      List.cons_append, List.take_append_drop]
termination_by s => s.length
decreasing_by exact length_drop_lt a rest _

/-- If every piece still has the elements that it was cut from, the last pieces of a list are the
pieces of what they have together. -/
theorem pieces_flatMap_of_append {step : α → List α → β × Nat} {source : β → List α}
    (h : ∀ a rest, source (step a rest).1 = a :: rest.take (step a rest).2)
    {s : List α} {before after : List β} (hs : pieces step s = before ++ after) :
    pieces step (after.flatMap source) = after := by
  induction before generalizing s with
  | nil =>
    rw [List.nil_append] at hs
    rw [← hs, flatMap_pieces h]
  | cons piece before ih =>
    cases s with
    | nil =>
      rw [pieces_nil] at hs
      cases hs
    | cons a rest =>
      rw [pieces_cons, List.cons_append, List.cons.injEq] at hs
      exact ih hs.2

end CallCensus.Text
