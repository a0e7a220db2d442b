import NodeSteward.Time.Timer

/-!
# Working at regular times

Some work is done again and again with a period from one start to the next.  Work that takes
longer than its period delays the next start: it follows at once, and the period is counted from
there.  A start that is late by no more than a small tolerance counts as punctual.
-/

namespace NodeSteward

namespace Patrol

variable {σ : Type}

/-- How late a start may be and still count as punctual. -/
def tolerance : Nat := Timer.ofMillis 5

/-- When work is due again that was due at `due` and started at `start`. -/
def next (period due start : Nat) : Nat :=
  if due + tolerance < start then start + period else due + period

theorem lt_next {period : Nat} (due start : Nat) (positive : 0 < period) :
    due < next period due start := by
  unfold next
  split <;> omega

/-- What is left until `stop` shrinks with every start before it. -/
theorem sub_next_lt {period stop due start : Nat} (positive : 0 < period) (late : due ≤ start)
    (starts : start < stop) : stop - next period due start < stop - due :=
  Nat.sub_lt_sub_left (Nat.lt_of_le_of_lt late starts) (lt_next due start positive)

/-- Works whenever it is due, until `stop`.  The work is given its start and yields its end; it is
due at `due` for the first time, and nothing else is done before `free`. -/
def run (work : Nat → σ → Nat × σ) (period stop due free : Nat) (state : σ) : σ :=
  if starts : 0 < period ∧ max due free < stop then
    have := sub_next_lt starts.1 (Nat.le_max_left due free) starts.2
    let (finish, state) := work (max due free) state
    run work period stop (next period due (max due free)) finish state
  else state
termination_by stop - due

end Patrol

end NodeSteward
