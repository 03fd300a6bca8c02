import CallCensus.Pattern.Basic

/-!
Searching for a match at one place, with a stack of open branches.

The search follows one branch until that has nothing left to match or comes to nothing.
Then it goes back to the latest choice that has another branch open. It gives up in two
cases: when it would need more than `maxBranches` open branches, and when it would go back
more often than its limit says.

A pattern of which only the first way to match counts is not part of this account. It is
matched by an automaton, which goes back to nothing: the branches that are opened inside of
such a pattern are free.

* `Machine.step`: one move along the present branch;
* `Machine.cost`: how many moves a search may need, and `Machine.cost_lt_of_step`: every move
  lowers it;
* `Machine.run`: the search, which therefore comes to an end.
-/

namespace CallCensus.Pattern

/-- The most branches that a search keeps open. -/
def maxBranches : Nat := 1000000

/-- Something left to do on a branch. -/
inductive Task where
  /-- Match a pattern. -/
  | find (p : Pattern)
  /-- Match a pattern, provided that characters were taken since `taken` of them
  were. -/
  | onward (p : Pattern) (taken : Nat)
  /-- Remember the match of group `n`, which was opened at a place. -/
  | close (n : Nat) (opened : Cursor)
  /-- Keep only the oldest `height` branches. -/
  | cut (height : Nat)
  /-- Keep only the oldest `height` branches and go back to a place. -/
  | rewind (height : Nat) (back : Cursor)
  /-- Come to nothing. -/
  | fail

/-- A way for a match to go on. -/
structure Branch where
  /-- What is left to do, in order. -/
  todo : List Task
  cursor : Cursor
  /-- How many patterns it is inside of that are matched by an automaton. -/
  depth : Nat

/-- What it costs to go back to a branch. -/
def Branch.price (b : Branch) : Nat :=
  if b.depth = 0 then 1 else 0

/-- A search under way. -/
structure Machine where
  /-- The branch that is being followed. -/
  present : Branch
  /-- The open branches, the latest first. -/
  others : List Branch
  /-- The number of open branches. -/
  height : Nat

/-- How a search for a match at one place ends. -/
inductive Attempt where
  /-- There is a match, and it ends here. -/
  | matched (final : Cursor)
  /-- There is no match, and the search could have gone back `left` more times. -/
  | failed (left : Nat)
  /-- The search gave up. -/
  | gaveUp

/-- What one move along the present branch comes to. -/
inductive Move where
  /-- The search goes on. -/
  | go (next : Machine)
  /-- Nothing is left to match. -/
  | done
  /-- The branch comes to nothing. -/
  | stuck
  /-- There is one branch too many. -/
  | full

namespace Machine

/-- Go on along the present branch, at `cursor` with `todo`. -/
def proceed (m : Machine) (todo : List Task) (cursor : Cursor) : Move :=
  .go { m with present := { m.present with todo := todo, cursor := cursor } }

/-- Go on where there is a place to go on at. -/
def proceedAt (m : Machine) (todo : List Task) (cursor : Option Cursor) : Move :=
  match cursor with
  | none => .stuck
  | some cursor => m.proceed todo cursor

/-- Go on if a condition holds. -/
def proceedIf (m : Machine) (ok : Bool) (todo : List Task) : Move :=
  if ok then m.proceed todo m.present.cursor else .stuck

/-- Whether no further branch may be opened. One more is always open, to search from the
next place on. -/
def isFull (m : Machine) : Bool :=
  m.present.depth == 0 && maxBranches ≤ m.height + 1

/-- Go on with `todo` and keep `other` as an open branch. -/
def fork (m : Machine) (todo other : List Task) : Move :=
  if m.isFull then .full
  else .go ⟨{ m.present with todo := todo }, { m.present with todo := other } :: m.others,
    m.height + 1⟩

/-- Go on inside of a pattern that is matched by an automaton. -/
def enter (m : Machine) (todo : List Task) : Move :=
  .go { m with present := { m.present with todo := todo, depth := m.present.depth + 1 } }

/-- Go on after such a pattern, with none but the oldest `height` branches. -/
def leave (m : Machine) (height : Nat) (todo : List Task) (cursor : Cursor) : Move :=
  .go ⟨⟨todo, cursor, m.present.depth - 1⟩, m.others.drop (m.height - height),
    min m.height height⟩

/-- Match a pattern, and then do `todo`. -/
def findNext (m : Machine) (todo : List Task) : Pattern → Move
  | one ok => m.proceedAt todo (m.present.cursor.next? ok)
  | empty => m.proceed todo m.present.cursor
  | seq p q => m.proceed (.find p :: .find q :: todo) m.present.cursor
  | alt p q => m.fork (.find p :: todo) (.find q :: todo)
  | many p => m.fork (.find p :: .onward (many p) m.present.cursor.taken :: todo) todo
  | few p => m.fork todo (.find p :: .onward (few p) m.present.cursor.taken :: todo)
  | textStart => m.proceedIf m.present.cursor.before.isNone todo
  | textEnd => m.proceedIf m.present.cursor.rest.isEmpty todo
  | ahead p => m.enter (.find p :: .rewind m.height m.present.cursor :: todo)
  | commit p => m.enter (.find p :: .cut m.height :: todo)
  -- a look behind is tried on a branch of its own, which is gone back from when it finds nothing
  | notAfter ok => if m.present.cursor.before.any ok then .stuck else m.fork [.fail] todo
  | group n p => m.proceed (.find p :: .close n m.present.cursor :: todo) m.present.cursor
  | same n => m.proceedAt todo (m.present.cursor.afterGroup? n)

/-- One move: the first thing left to do. -/
def step (m : Machine) : Move :=
  match m.present.todo with
  | [] => .done
  | .find p :: todo => m.findNext todo p
  | .onward p taken :: todo =>
    if taken < m.present.cursor.taken then m.proceed (.find p :: todo) m.present.cursor
    else .stuck
  | .close n opened :: todo => m.proceed todo (m.present.cursor.close n opened)
  | .cut height :: todo => m.leave height todo m.present.cursor
  | .rewind height back :: todo =>
    m.leave height todo { back with groups := m.present.cursor.groups }
  | .fail :: _ => .stuck

end Machine

/-! ### The end of a search -/

/-- How many moves a pattern may need, over all its ways to match from a place with `n`
characters left, for each move that comes after it. -/
def weight : Pattern → (n : Nat) → Nat
  | one _, _ => 2
  | empty, _ => 2
  | seq p q, n => p.weight n * q.weight n + 1
  | alt p q, n => p.weight n + q.weight n + 1
  | many p, n => Nat.pow (2 * p.weight n + 2) (n + 1)
  | few p, n => Nat.pow (2 * p.weight n + 2) (n + 1)
  | textStart, _ => 2
  | textEnd, _ => 2
  | ahead p, n => 2 * p.weight n + 1
  | commit p, n => 2 * p.weight n + 1
  | notAfter _, _ => 3
  | group _ p, n => 2 * p.weight n + 1
  | same _, _ => 2

/-- How many moves may be needed for what is left to do, from a place with `n` characters
left where `taken` were taken. -/
def work : List Task → (taken n : Nat) → Nat
  | [], _, _ => 1
  | .find p :: todo, taken, n => p.weight n * work todo taken n
  | .onward p before :: todo, taken, n =>
    if before < taken then 2 * (p.weight n * work todo taken n)
    else if n = 0 then 1
    else 2 * (p.weight (n - 1) * work todo (taken + 1) (n - 1))
  | .close _ _ :: todo, taken, n => 2 * work todo taken n
  | .cut _ :: todo, taken, n => 2 * work todo taken n
  | .rewind _ back :: todo, _, _ => 2 * work todo back.taken back.rest.length
  | .fail :: _, _, _ => 1

/-- The same, from a given place. -/
def workAt (todo : List Task) (here : Cursor) : Nat :=
  work todo here.taken here.rest.length

/-- How many moves may be needed along a branch, and along those that it opens. -/
def Branch.work (b : Branch) : Nat :=
  workAt b.todo b.cursor

/-- How many moves may be needed along some branches, and along those that they open. -/
def workOf : List Branch → Nat
  | [] => 0
  | b :: others => b.work + workOf others

/-- How many moves a search may need. -/
def Machine.cost (m : Machine) : Nat :=
  m.present.work + workOf m.others

theorem weight_pos (p : Pattern) (n : Nat) : 0 < p.weight n := by
  cases p with
  | many p => exact Nat.pow_pos (Nat.succ_pos _)
  | few p => exact Nat.pow_pos (Nat.succ_pos _)
  | _ => simp [weight]

theorem weight_mono (p : Pattern) {n n' : Nat} (h : n ≤ n') : p.weight n ≤ p.weight n' := by
  have hpow : ∀ {a a' : Nat}, a ≤ a' →
      Nat.pow (2 * a + 2) (n + 1) ≤ Nat.pow (2 * a' + 2) (n' + 1) :=
    fun {a a'} ha => Nat.le_trans (Nat.pow_le_pow_left (by omega) _)
      (Nat.pow_le_pow_right (by omega) (by omega))
  induction p with
  | seq p q hp hq => exact Nat.add_le_add_right (Nat.mul_le_mul hp hq) 1
  | many p hp => exact hpow hp
  | few p hp => exact hpow hp
  | _ => simp only [weight]; omega

theorem work_pos (todo : List Task) (taken n : Nat) : 0 < work todo taken n := by
  induction todo generalizing taken n with
  | nil => exact Nat.one_pos
  | cons task todo ih =>
    cases task with
    | find p => exact Nat.mul_pos (p.weight_pos n) (ih taken n)
    | onward p before =>
      have htwice : ∀ taken n, 0 < 2 * (p.weight n * work todo taken n) := fun taken n =>
        Nat.mul_pos Nat.two_pos (Nat.mul_pos (p.weight_pos n) (ih taken n))
      rw [work]
      split
      · exact htwice taken n
      · split
        · exact Nat.one_pos
        · exact htwice (taken + 1) (n - 1)
    | close group opened => exact Nat.mul_pos Nat.two_pos (ih taken n)
    | cut height => exact Nat.mul_pos Nat.two_pos (ih taken n)
    | rewind height back => exact Nat.mul_pos Nat.two_pos (ih _ _)
    | fail => exact Nat.one_pos

/-- Further on in the text, there is less to do. -/
theorem work_mono (todo : List Task) {taken taken' n n' : Nat} (htaken : taken ≤ taken')
    (hsum : taken' + n' = taken + n) : work todo taken' n' ≤ work todo taken n := by
  induction todo generalizing taken taken' n n' with
  | nil => exact Nat.le_refl 1
  | cons task todo ih =>
    have hfind : ∀ {p : Pattern} {taken taken' n n'}, taken ≤ taken' → taken' + n' = taken + n →
        p.weight n' * work todo taken' n' ≤ p.weight n * work todo taken n :=
      fun {p _ _ _ _} htaken hsum =>
        Nat.mul_le_mul (p.weight_mono (by omega)) (ih htaken hsum)
    cases task with
    | find p => exact hfind htaken hsum
    | onward p before =>
      have hpos := work_pos (.onward p before :: todo) taken n
      simp only [work] at hpos ⊢
      by_cases hbefore : before < taken
      · rw [if_pos (by omega), if_pos hbefore]
        exact Nat.mul_le_mul_left 2 (hfind htaken hsum)
      · rw [if_neg hbefore] at hpos ⊢
        split
        · rw [if_neg (by omega)]
          exact Nat.mul_le_mul_left 2 (hfind (by omega) (by omega))
        · split
          · exact hpos
          · rw [if_neg (by omega)]
            exact Nat.mul_le_mul_left 2 (hfind (by omega) (by omega))
    | close group opened => exact Nat.mul_le_mul_left 2 (ih htaken hsum)
    | cut height => exact Nat.mul_le_mul_left 2 (ih htaken hsum)
    | rewind height back => exact Nat.le_refl _
    | fail => exact Nat.le_refl 1

/-- What a repetition needs: one more round and then more of them, or what comes after. -/
theorem round_lt (p : Pattern) (todo : List Task) (taken n : Nat) {q : Pattern}
    (hq : ∀ n, q.weight n = Nat.pow (2 * p.weight n + 2) (n + 1)) :
    p.weight n * work (.onward q taken :: todo) taken n + work todo taken n <
      q.weight n * work todo taken n := by
  have hpos := work_pos todo taken n
  simp only [Nat.pow_eq] at hq
  rw [work, if_neg (Nat.lt_irrefl taken)]
  cases n with
  | zero =>
    have hle := Nat.le_mul_of_pos_right (p.weight 0) hpos
    rw [if_pos rfl, hq, Nat.pow_one, Nat.add_mul, Nat.mul_assoc]
    omega
  | succ n =>
    rw [if_neg (Nat.succ_ne_zero n), Nat.add_sub_cancel, hq (n + 1)]
    have hweight : p.weight n ≤ p.weight (n + 1) := p.weight_mono (Nat.le_succ n)
    have hbase : 2 * p.weight n + 2 ≤ 2 * p.weight (n + 1) + 2 := by omega
    generalize hbound : (2 * p.weight (n + 1) + 2) ^ (n + 1) * work todo taken (n + 1) = bound
    have hrounds : q.weight n * work todo (taken + 1) n ≤ bound := by
      rw [hq, ← hbound]
      exact Nat.mul_le_mul (Nat.pow_le_pow_left hbase _)
        (work_mono todo (Nat.le_succ taken) (by omega))
    have hrest : work todo taken (n + 1) ≤ bound :=
      hbound ▸ Nat.le_mul_of_pos_left _ (Nat.pow_pos (Nat.succ_pos _))
    calc p.weight (n + 1) * (2 * (q.weight n * work todo (taken + 1) n)) + work todo taken (n + 1)
        ≤ p.weight (n + 1) * (2 * bound) + bound :=
          Nat.add_le_add (Nat.mul_le_mul_left _ (Nat.mul_le_mul_left _ hrounds)) hrest
      _ < (2 * p.weight (n + 1) + 2) * bound := by
          rw [Nat.mul_left_comm, ← Nat.mul_assoc, Nat.add_mul]
          omega
      _ = (2 * p.weight (n + 1) + 2) ^ (n + 1 + 1) * work todo taken (n + 1) := by
          rw [← hbound, Nat.pow_succ' (n := n + 1), Nat.mul_assoc]

theorem workOf_drop_le (k : Nat) (others : List Branch) :
    workOf (others.drop k) ≤ workOf others := by
  induction others generalizing k with
  | nil => exact Nat.le_of_eq (congrArg workOf List.drop_nil)
  | cons b others ih =>
    cases k with
    | zero => exact Nat.le_refl _
    | succ k => exact Nat.le_trans (ih k) (Nat.le_add_left _ _)

/-- What comes after one more character. -/
theorem workAt_next?_le (todo : List Task) {ok : Char → Bool} {here there : Cursor}
    (h : here.next? ok = some there) : workAt todo there ≤ workAt todo here := by
  rw [Cursor.next?] at h
  split at h
  · cases h
  · rename_i c rest hrest
    split at h
    · cases h
      refine work_mono todo (Nat.le_succ here.taken) ?_
      rw [hrest, List.length_cons, ← Nat.add_assoc, Nat.add_right_comm]
      rfl
    · cases h

/-- What comes after a given text once more. -/
theorem workAt_afterCopy?_le (todo : List Task) {here there : Cursor} {s : Text} {length : Nat}
    (h : here.afterCopy? s length = some there) : workAt todo there ≤ workAt todo here := by
  induction length generalizing here s with
  | zero =>
    cases s <;> cases h <;> exact Nat.le_refl _
  | succ length ih =>
    cases s with
    | nil => cases h; exact Nat.le_refl _
    | cons c s =>
      rw [Cursor.afterCopy?] at h
      split at h
      · cases h
      · rename_i next hnext
        exact Nat.le_trans (ih h) (workAt_next?_le todo hnext)

namespace Machine

variable {m next : Machine} {todo other : List Task}

theorem cost_lt_of_proceed {cursor : Cursor} (h : m.proceed todo cursor = .go next)
    (hwork : workAt todo cursor < m.present.work) : next.cost < m.cost := by
  cases h
  exact Nat.add_lt_add_right hwork _

theorem cost_lt_of_proceedAt {cursor : Option Cursor} (h : m.proceedAt todo cursor = .go next)
    (hwork : ∀ there, cursor = some there → workAt todo there < m.present.work) :
    next.cost < m.cost := by
  cases cursor with
  | none => cases h
  | some there => exact cost_lt_of_proceed h (hwork there rfl)

theorem cost_lt_of_proceedIf {ok : Bool} (h : m.proceedIf ok todo = .go next)
    (hwork : workAt todo m.present.cursor < m.present.work) : next.cost < m.cost := by
  cases ok with
  | false => cases h
  | true => exact cost_lt_of_proceed h hwork

theorem cost_lt_of_fork (h : m.fork todo other = .go next)
    (hwork : workAt todo m.present.cursor + workAt other m.present.cursor < m.present.work) :
    next.cost < m.cost := by
  rw [fork] at h
  split at h
  · cases h
  · cases h
    rw [cost, cost, workOf, ← Nat.add_assoc]
    exact Nat.add_lt_add_right hwork _

theorem cost_lt_of_enter (h : m.enter todo = .go next)
    (hwork : workAt todo m.present.cursor < m.present.work) : next.cost < m.cost := by
  cases h
  exact Nat.add_lt_add_right hwork _

theorem cost_lt_of_leave {height : Nat} {cursor : Cursor}
    (h : m.leave height todo cursor = .go next) (hwork : workAt todo cursor < m.present.work) :
    next.cost < m.cost := by
  cases h
  exact Nat.add_lt_add_of_lt_of_le hwork (workOf_drop_le _ _)

/-- To match a pattern takes less than to have it left to do. -/
theorem cost_lt_of_findNext {p : Pattern} (htodo : m.present.todo = .find p :: todo)
    (h : m.findNext todo p = .go next) : next.cost < m.cost := by
  have hpos := work_pos todo m.present.cursor.taken m.present.cursor.rest.length
  have hwork : m.present.work = p.weight m.present.cursor.rest.length *
      work todo m.present.cursor.taken m.present.cursor.rest.length := by
    rw [Branch.work, htodo]
    rfl
  -- going on with `todo` alone takes less, since the weight of the pattern is at least two
  have hafter : 2 ≤ p.weight m.present.cursor.rest.length → ∀ there : Cursor,
      workAt todo there ≤ workAt todo m.present.cursor → workAt todo there < m.present.work := by
    intro htwo there hthere
    have htwice := Nat.mul_le_mul_right
      (work todo m.present.cursor.taken m.present.cursor.rest.length) htwo
    rw [workAt, workAt] at *
    omega
  cases p with
  | one ok =>
    exact cost_lt_of_proceedAt h fun there hthere =>
      hafter (Nat.le_refl 2) there (workAt_next?_le todo hthere)
  | empty => exact cost_lt_of_proceed h (hafter (Nat.le_refl 2) _ (Nat.le_refl _))
  | seq p q =>
    refine cost_lt_of_proceed h ?_
    rw [hwork]
    simp only [workAt, work, weight, Nat.add_mul, Nat.mul_assoc]
    omega
  | alt p q =>
    refine cost_lt_of_fork h ?_
    rw [hwork]
    simp only [workAt, work, weight, Nat.add_mul]
    omega
  | many p =>
    refine cost_lt_of_fork h ?_
    rw [hwork]
    exact round_lt p todo _ _ fun _ => rfl
  | few p =>
    refine cost_lt_of_fork h ?_
    rw [hwork, Nat.add_comm]
    exact round_lt p todo _ _ fun _ => rfl
  | textStart | textEnd =>
    exact cost_lt_of_proceedIf h (hafter (Nat.le_refl 2) _ (Nat.le_refl _))
  | ahead p | commit p =>
    refine cost_lt_of_enter h ?_
    rw [hwork]
    simp only [workAt, work, weight, Nat.add_mul, Nat.mul_left_comm, Nat.mul_assoc]
    omega
  | notAfter ok =>
    rw [findNext] at h
    split at h
    · cases h
    · refine cost_lt_of_fork h ?_
      rw [hwork]
      simp only [workAt, work, weight]
      omega
  | group n p =>
    refine cost_lt_of_proceed h ?_
    rw [hwork]
    simp only [workAt, work, weight, Nat.add_mul, Nat.mul_left_comm, Nat.mul_assoc]
    omega
  | same n =>
    refine cost_lt_of_proceedAt h fun there hthere => ?_
    rw [Cursor.afterGroup?] at hthere
    split at hthere
    · cases hthere
    · exact hafter (Nat.le_refl 2) there (workAt_afterCopy?_le todo hthere)

/-- **Every move leaves less to do.** -/
theorem cost_lt_of_step (h : m.step = .go next) : next.cost < m.cost := by
  have htwice : ∀ {todo todo' : List Task} {here : Cursor}, m.present.todo = todo →
      workAt todo m.present.cursor = 2 * workAt todo' here →
        workAt todo' here < m.present.work := by
    intro todo todo' here htodo hwork
    have hpos := work_pos todo' here.taken here.rest.length
    rw [Branch.work, htodo, hwork, workAt]
    omega
  rw [step] at h
  split at h
  · cases h
  · rename_i p todo htodo
    exact cost_lt_of_findNext htodo h
  · rename_i p taken todo htodo
    split at h
    · rename_i htaken
      exact cost_lt_of_proceed h (htwice htodo (if_pos htaken))
    · cases h
  · rename_i n opened todo htodo
    exact cost_lt_of_proceed h (htwice htodo rfl)
  · rename_i height todo htodo
    exact cost_lt_of_leave h (htwice htodo rfl)
  · rename_i height back todo htodo
    exact cost_lt_of_leave h (htwice htodo rfl)
  · cases h

/-- So does going back. -/
theorem cost_lt_of_others {b : Branch} {others : List Branch} (h : m.others = b :: others)
    (height : Nat) : (Machine.mk b others height).cost < m.cost := by
  rw [cost, cost, h, workOf]
  exact Nat.lt_add_of_pos_left (work_pos _ _ _)

/-! ### The search -/

/-- A search that can go back `left` more times. -/
def run (left : Nat) (m : Machine) : Attempt :=
  match _hstep : m.step with
  | .go next => run left next
  | .done => .matched m.present.cursor
  | .full => .gaveUp
  | .stuck =>
    match _hothers : m.others with
    | [] => .failed left
    | b :: others =>
      if left < b.price then .gaveUp else run (left - b.price) ⟨b, others, m.height - 1⟩
termination_by m.cost
decreasing_by
  · exact cost_lt_of_step ‹_›
  · exact cost_lt_of_others ‹_› _

end Machine

end CallCensus.Pattern
