/-!
# Timers

Waiting is measured on a clock of its own that counts nanoseconds and never goes back; its
instants and the lengths of time between them are natural numbers.  Timers of this clock fire
only at whole multiples of a step, its resolution: a wait that would end between two steps ends
at the later one.

A timer cannot be set as far ahead as one likes.  Thirty years of 365 days are the far future to it,
and a single wait that should last longer ends after that: a wait for a million million milliseconds
is over after 946080000000.  This is a property of the timers and not of what is waited for.  Who
looks at the clock again when the wait is over, as a limiter does, waits on; the pause between two
questions, the delay of an item and the time until a cancellation are single waits.
-/

namespace NodeSteward

namespace Timer

/-- The nanoseconds of some milliseconds. -/
def ofMillis (millis : Nat) : Nat := millis * 1000000

/-- The nanoseconds of some seconds. -/
def ofSeconds (seconds : Nat) : Nat := seconds * 1000000000

/-- The whole milliseconds of some nanoseconds. -/
def toMillis (nanos : Nat) : Nat := nanos / 1000000

/-- The first instant not before `due` at which a timer of the given resolution fires. -/
def wake (resolution due : Nat) : Nat :=
  if resolution = 0 then due else (due + resolution - 1) / resolution * resolution

/-- How far ahead a timer can be set: the thirty years that are the far future to it. -/
def longest : Nat := ofSeconds (30 * 365 * 86400)

/-- The instant at which a single wait ends that starts at `now`. -/
def expiry (resolution now length : Nat) : Nat :=
  wake resolution (now + min length longest)

theorem le_wake (resolution due : Nat) : due ≤ wake resolution due := by
  unfold wake
  split
  · exact Nat.le_refl _
  · rename_i positive
    have step := Nat.div_add_mod' (due + resolution - 1) resolution
    have bound := Nat.mod_lt (due + resolution - 1) (Nat.pos_of_ne_zero positive)
    generalize (due + resolution - 1) / resolution * resolution = reached at step ⊢
    omega

/-- A wait that ends on a step ends there exactly. -/
theorem wake_of_dvd {resolution due : Nat} (onStep : resolution ∣ due) :
    wake resolution due = due := by
  obtain ⟨count, rfl⟩ := onStep
  unfold wake
  split
  · rfl
  · rename_i positive
    have positive : 0 < resolution := Nat.pos_of_ne_zero positive
    have whole : (resolution * count + resolution - 1) / resolution = count := by
      rw [Nat.add_sub_assoc positive, Nat.mul_add_div positive,
        Nat.div_eq_of_lt (Nat.sub_lt positive Nat.one_pos), Nat.add_zero]
    rw [whole, Nat.mul_comm]

theorem wake_mono (resolution : Nat) {due later : Nat} (before : due ≤ later) :
    wake resolution due ≤ wake resolution later := by
  unfold wake
  split
  · exact before
  · exact Nat.mul_le_mul_right _ (Nat.div_le_div_right (by omega))

/-- A step of the timers is the first one that is not before itself. -/
theorem wake_wake (resolution due : Nat) :
    wake resolution (wake resolution due) = wake resolution due := by
  by_cases stepless : resolution = 0
  · rw [stepless]
    rfl
  · have step : wake resolution due = (due + resolution - 1) / resolution * resolution :=
      if_neg stepless
    exact wake_of_dvd (step ▸ Nat.dvd_mul_left _ _)

theorem now_le_expiry (resolution now length : Nat) : now ≤ expiry resolution now length :=
  Nat.le_trans (Nat.le_add_right _ _) (le_wake _ _)

/-- Who waits for some time is woken later, however short that time and however coarse the steps. -/
theorem now_lt_expiry (resolution now : Nat) {length : Nat} (positive : 0 < length) :
    now < expiry resolution now length := by
  have passes : 0 < min length longest := Nat.lt_min.mpr ⟨positive, by decide⟩
  calc
    now < now + min length longest := Nat.lt_add_of_pos_right passes
    _ ≤ expiry resolution now length := le_wake _ _

/-- A wait ends at the latest at the step for which it is meant, and if it reaches the due instant
it ends at this step. -/
theorem expiry_le_wake (resolution now length : Nat) :
    expiry resolution now length ≤ wake resolution (now + length) :=
  wake_mono resolution (Nat.add_le_add_left (Nat.min_le_left _ _) now)

theorem expiry_eq_wake {resolution now length : Nat}
    (reached : now + length ≤ expiry resolution now length) :
    expiry resolution now length = wake resolution (now + length) := by
  refine Nat.le_antisymm (expiry_le_wake resolution now length) ?_
  calc
    wake resolution (now + length) ≤ wake resolution (expiry resolution now length) :=
      wake_mono resolution reached
    _ = expiry resolution now length := wake_wake _ _

end Timer

end NodeSteward
