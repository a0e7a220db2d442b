import Mathlib.Data.List.Iterate
import NodeSteward.Proofs.Channel.Pacing

/-!
# Waiting for a permit

Whoever waits for a permit makes attempts.  An attempt that is refused tells how long it is until
the permit is due; the wait pauses for that long and makes another attempt, unless it is cancelled
in between.  A pause ends at a step of the timers, and none is longer than the longest one, so that
a wait may consist of several.

However many pauses there are, the wait ends at the first step of the timers at which the permit is
due, or with the cancellation if that comes first.  Where the permit is due at a step, this is the
very instant; otherwise it is later, by less than a step.
-/

namespace NodeSteward

namespace RateLimiter

variable {limiter kept : RateLimiter} {resolution now retryAfter : Nat} {cancel : Option Nat}
  {waited : Waited}

/-- A refusal tells the time until an interval has passed since the last permit. -/
theorem check_eq_exceeded_iff :
    limiter.check now = .exceeded retryAfter ↔
      ∃ last, limiter.last = some last ∧ 0 < retryAfter ∧
        now + retryAfter = last + limiter.limit.interval := by
  unfold check
  cases limiter.last with
  | none => simp
  | some last =>
    dsimp only
    split
    · simp only [Permission.exceeded.injEq, Option.some_inj, exists_eq_left']
      omega
    · simp only [reduceCtorEq, Option.some_inj, exists_eq_left', false_iff]
      omega

theorem tryAcquire_of_allowed (available : limiter.check now = .allowed) :
    limiter.tryAcquire now = (.allowed, { limiter with last := some now }) := by
  rw [tryAcquire, available]

theorem tryAcquire_of_exceeded (exceeded : limiter.check now = .exceeded retryAfter) :
    limiter.tryAcquire now = (.exceeded retryAfter, limiter) := by
  rw [tryAcquire, exceeded]

theorem tryAcquire_eq_allowed_iff :
    limiter.tryAcquire now = (.allowed, kept) ↔
      limiter.check now = .allowed ∧ kept = { limiter with last := some now } := by
  cases answered : limiter.check now with
  | allowed => simp [tryAcquire_of_allowed answered, eq_comm]
  | exceeded retryAfter => simp [tryAcquire_of_exceeded answered]

theorem tryAcquire_eq_exceeded_iff :
    limiter.tryAcquire now = (.exceeded retryAfter, kept) ↔
      limiter.check now = .exceeded retryAfter ∧ kept = limiter := by
  cases answered : limiter.check now with
  | allowed => simp [tryAcquire_of_allowed answered]
  | exceeded retryAfter => simp [tryAcquire_of_exceeded answered, eq_comm]

/-- What a limiter says about an attempt, and what the attempt makes of the limiter. -/
structure Answers (limiter : RateLimiter) (now : Nat) : Prop where
  allowed_iff : limiter.check now = .allowed ↔
    ∀ last, limiter.last = some last → last + limiter.limit.interval ≤ now
  /-- The time that a refusal tells is the least after which an attempt is granted. -/
  least : ∀ retryAfter, limiter.check now = .exceeded retryAfter →
    ∀ instant, limiter.check instant = .allowed ↔ now + retryAfter ≤ instant
  attempted : (limiter.tryAcquire now).1 = limiter.check now
  granted : limiter.check now = .allowed →
    (limiter.tryAcquire now).2 = { limiter with last := some now }
  refused : limiter.check now ≠ .allowed → (limiter.tryAcquire now).2 = limiter

theorem answers (limiter : RateLimiter) (now : Nat) : limiter.Answers now where
  allowed_iff := check_eq_allowed_iff
  least retryAfter exceeded instant := by
    rcases check_eq_exceeded_iff.mp exceeded with ⟨last, held, _, due⟩
    rw [check_eq_allowed_iff, held, due]
    simp
  attempted := by
    cases answered : limiter.check now with
    | allowed => rw [tryAcquire_of_allowed answered]
    | exceeded retryAfter => rw [tryAcquire_of_exceeded answered]
  granted available := by rw [tryAcquire_of_allowed available]
  refused unavailable := by
    cases answered : limiter.check now with
    | allowed => exact absurd answered unavailable
    | exceeded retryAfter => rw [tryAcquire_of_exceeded answered]

/-! ## Attempts until one is granted -/

/-- A wait that goes on from an instant, attempt by attempt.  When the end of a pause and the
cancellation fall together, either may come first. -/
inductive Retries (resolution : Nat) (cancel : Option Nat) :
    RateLimiter → Nat → Waited → Prop
  | granted {limiter taken : RateLimiter} {now : Nat}
    (attempt : limiter.tryAcquire now = (.allowed, taken)) :
    Retries resolution cancel limiter now ⟨true, now, taken⟩
  | cancelled {limiter kept : RateLimiter} {now retryAfter stop : Nat}
    (attempt : limiter.tryAcquire now = (.exceeded retryAfter, kept))
    (stops : cancel = some stop) (before : stop ≤ Timer.expiry resolution now retryAfter) :
    Retries resolution cancel limiter now ⟨false, max now stop, kept⟩
  | pauses {limiter kept : RateLimiter} {now retryAfter : Nat} {waited : Waited}
    (attempt : limiter.tryAcquire now = (.exceeded retryAfter, kept))
    (uncancelled : ∀ stop, cancel = some stop → Timer.expiry resolution now retryAfter ≤ stop)
    (rest : Retries resolution cancel kept (Timer.expiry resolution now retryAfter) waited) :
    Retries resolution cancel limiter now waited

/-- When and how a wait ends.  Where the cancellation comes at the very step at which the permit
would be taken, it may end either way. -/
inductive Ends (limiter : RateLimiter) (resolution now : Nat) (cancel : Option Nat) :
    Waited → Prop
  /-- A permit that is available at the start is taken then, also if the wait is cancelled. -/
  | atOnce (available : limiter.check now = .allowed) :
    Ends limiter resolution now cancel ⟨true, now, { limiter with last := some now }⟩
  | inTime {last ready : Nat} (held : limiter.last = some last)
    (early : now < last + limiter.limit.interval)
    (fires : ready = Timer.wake resolution (last + limiter.limit.interval))
    (uncancelled : ∀ stop, cancel = some stop → ready ≤ stop) :
    Ends limiter resolution now cancel ⟨true, ready, { limiter with last := some ready }⟩
  | cancelled {last stop : Nat} (held : limiter.last = some last)
    (early : now < last + limiter.limit.interval) (stops : cancel = some stop)
    (before : stop ≤ Timer.wake resolution (last + limiter.limit.interval)) :
    Ends limiter resolution now cancel ⟨false, max now stop, limiter⟩

/-- The end of a wait can be seen from after its first pause. -/
theorem Ends.of_pause (exceeded : limiter.check now = .exceeded retryAfter)
    (uncancelled : ∀ stop, cancel = some stop → Timer.expiry resolution now retryAfter ≤ stop)
    (later : limiter.Ends resolution (Timer.expiry resolution now retryAfter) cancel waited) :
    limiter.Ends resolution now cancel waited := by
  rcases check_eq_exceeded_iff.mp exceeded with ⟨last, held, positive, due⟩
  have early : now < last + limiter.limit.interval := by omega
  have passes := Timer.now_lt_expiry resolution now positive
  cases later with
  | atOnce available =>
    -- the pause has reached the instant at which the permit is due
    have reached := check_eq_allowed_iff.mp available last held
    rw [← due] at reached
    have fires := Timer.expiry_eq_wake reached
    rw [due] at fires
    exact .inTime held early fires uncancelled
  | inTime held' _ fires onTime =>
    cases held.symm.trans held'
    exact .inTime held early fires onTime
  | @cancelled last' stop held' _ stops before =>
    cases held.symm.trans held'
    have behind := uncancelled stop stops
    have same : max (Timer.expiry resolution now retryAfter) stop = max now stop := by omega
    rw [same]
    exact .cancelled held early stops before

theorem Retries.ends (retries : Retries resolution cancel limiter now waited) :
    limiter.Ends resolution now cancel waited := by
  induction retries with
  | granted attempt =>
    rcases tryAcquire_eq_allowed_iff.mp attempt with ⟨available, rfl⟩
    exact .atOnce available
  | cancelled attempt stops before =>
    rcases tryAcquire_eq_exceeded_iff.mp attempt with ⟨exceeded, rfl⟩
    rcases check_eq_exceeded_iff.mp exceeded with ⟨last, held, positive, due⟩
    refine .cancelled held (by omega) stops (Nat.le_trans before ?_)
    rw [← due]
    exact Timer.expiry_le_wake _ _ _
  | pauses attempt uncancelled _ ih =>
    rcases tryAcquire_eq_exceeded_iff.mp attempt with ⟨exceeded, rfl⟩
    exact ih.of_pause exceeded uncancelled

/-- A wait that has not ended in its first pause ends after it as it would have from the start. -/
theorem Ends.after_pause (exceeded : limiter.check now = .exceeded retryAfter)
    (ends : limiter.Ends resolution now cancel waited)
    (unended : ¬ ∃ stop, cancel = some stop ∧ stop ≤ Timer.expiry resolution now retryAfter ∧
      waited = ⟨false, max now stop, limiter⟩) :
    (∀ stop, cancel = some stop → Timer.expiry resolution now retryAfter ≤ stop) ∧
      limiter.Ends resolution (Timer.expiry resolution now retryAfter) cancel waited := by
  rcases check_eq_exceeded_iff.mp exceeded with ⟨last, held, positive, due⟩
  have passes := Timer.now_lt_expiry resolution now positive
  have meant := Timer.expiry_le_wake resolution now retryAfter
  have arrives : now + retryAfter ≤ Timer.expiry resolution now retryAfter →
      Timer.expiry resolution now retryAfter = Timer.wake resolution (now + retryAfter) :=
    Timer.expiry_eq_wake
  rw [due] at meant arrives
  cases ends with
  | atOnce available => cases exceeded.symm.trans available
  | inTime held' _ fires onTime =>
    cases held.symm.trans held'
    rw [← fires] at meant arrives
    refine ⟨fun stop stops => Nat.le_trans meant (onTime stop stops), ?_⟩
    by_cases reached : last + limiter.limit.interval ≤ Timer.expiry resolution now retryAfter
    · rw [← arrives reached]
      refine .atOnce (check_eq_allowed_iff.mpr ?_)
      intro other again
      cases held.symm.trans again
      exact reached
    · exact .inTime held (Nat.lt_of_not_le reached) fires onTime
  | @cancelled last' stop held' _ stops before =>
    cases held.symm.trans held'
    have behind : Timer.expiry resolution now retryAfter < stop :=
      Nat.lt_of_not_le fun early => unended ⟨stop, stops, early, rfl⟩
    constructor
    · intro other again
      cases stops.symm.trans again
      exact Nat.le_of_lt behind
    · have unreached : Timer.expiry resolution now retryAfter < last + limiter.limit.interval := by
        refine Nat.lt_of_not_le fun reached => ?_
        rw [arrives reached] at behind
        exact absurd before (Nat.not_le_of_lt behind)
      have same : max now stop = max (Timer.expiry resolution now retryAfter) stop := by omega
      rw [same]
      exact .cancelled held unreached stops before

theorem Ends.retries (ends : limiter.Ends resolution now cancel waited) :
    Retries resolution cancel limiter now waited := by
  -- every pause takes some of the time that is left until the permit is due
  induction left : (limiter.last.getD 0 + limiter.limit.interval) - now
    using Nat.strongRecOn generalizing now with
  | ind left ih =>
    subst left
    cases answered : limiter.check now with
    | allowed =>
      cases ends with
      | atOnce => exact .granted (tryAcquire_of_allowed answered)
      | inTime held early =>
        exact absurd (check_eq_allowed_iff.mp answered _ held) (Nat.not_le_of_lt early)
      | cancelled held early =>
        exact absurd (check_eq_allowed_iff.mp answered _ held) (Nat.not_le_of_lt early)
    | exceeded retryAfter =>
      have attempt := tryAcquire_of_exceeded answered
      rcases check_eq_exceeded_iff.mp answered with ⟨last, held, positive, due⟩
      by_cases ended : ∃ stop, cancel = some stop ∧
          stop ≤ Timer.expiry resolution now retryAfter ∧
          waited = ⟨false, max now stop, limiter⟩
      · rcases ended with ⟨stop, stops, before, rfl⟩
        exact .cancelled attempt stops before
      · rcases ends.after_pause answered ended with ⟨uncancelled, later⟩
        have passes := Timer.now_lt_expiry resolution now positive
        refine .pauses attempt uncancelled (ih _ ?_ later rfl)
        rw [held, Option.getD_some]
        omega

theorem take_ends (limiter : RateLimiter) (resolution now : Nat) (cancel : Option Nat) :
    limiter.Ends resolution now cancel (limiter.take resolution now cancel) := by
  cases answered : limiter.check now with
  | allowed =>
    rw [take, answered]
    exact .atOnce answered
  | exceeded retryAfter =>
    rcases check_eq_exceeded_iff.mp answered with ⟨last, held, positive, due⟩
    have early : now < last + limiter.limit.interval := by omega
    rw [take, answered]
    dsimp only
    rw [due]
    cases cancel with
    | none =>
      refine .inTime held early rfl ?_
      intro stop stops
      cases stops
    | some stop =>
      dsimp only
      split
      · rename_i before
        exact .cancelled held early rfl (Nat.le_of_lt before)
      · rename_i onTime
        refine .inTime held early rfl ?_
        rintro _ ⟨⟩
        exact Nat.le_of_not_lt onTime

/-! ## Waits in a row -/

/-- Waits that begin one at the end of the other, and are not cancelled. -/
def waitsInARow (count : Nat) : List (Nat × Use) :=
  List.replicate count (0, .take none)

end RateLimiter

/-- When the next of several waits in a row ends.  It does not wait at all if permits need not be
apart. -/
def RateLimit.next (limit : RateLimit) (resolution ended : Nat) : Nat :=
  if limit.interval = 0 then ended else Timer.wake resolution (ended + limit.interval)

/-- Where intervals end at steps, the next wait ends an interval later. -/
theorem RateLimit.next_of_dvd {limit : RateLimit} {resolution ended : Nat}
    (onStep : resolution ∣ ended) (whole : resolution ∣ limit.interval) :
    limit.next resolution ended = ended + limit.interval := by
  unfold next
  split
  · rename_i none
    rw [none, Nat.add_zero]
  · exact Timer.wake_of_dvd (Nat.dvd_add onStep whole)

namespace RateLimiter

variable {limit : RateLimit} {resolution : Nat}

theorem perform_take_of_allowed {limiter : RateLimiter} {now : Nat}
    (available : limiter.check now = .allowed) (cancel : Option Nat) :
    (Use.take cancel).perform resolution now limiter =
      ⟨some now, now, { limiter with last := some now }⟩ := by
  rw [Use.perform, take, available]
  rfl

/-- A wait that begins with the permit before it. -/
theorem perform_take_behind (limit : RateLimit) (resolution ended : Nat) :
    (Use.take none).perform resolution ended ⟨limit, some ended⟩ =
      ⟨some (limit.next resolution ended), limit.next resolution ended,
        ⟨limit, some (limit.next resolution ended)⟩⟩ := by
  by_cases none : limit.interval = 0
  · have available : check ⟨limit, some ended⟩ ended = .allowed := by
      rw [check_eq_allowed_iff]
      rintro _ ⟨⟩
      rw [none]
      exact Nat.le_refl _
    rw [perform_take_of_allowed available, RateLimit.next, if_pos none]
  · have exceeded : check ⟨limit, some ended⟩ ended = .exceeded limit.interval :=
      check_eq_exceeded_iff.mpr ⟨ended, rfl, Nat.pos_of_ne_zero none, rfl⟩
    rw [Use.perform, take, exceeded, RateLimit.next, if_neg none]
    rfl

theorem permits_waitsInARow_behind (limit : RateLimit) (resolution ended count : Nat) :
    permits resolution ended ⟨limit, some ended⟩ (waitsInARow count) =
      List.iterate (limit.next resolution) (limit.next resolution ended) count := by
  induction count generalizing ended with
  | zero => rfl
  | succ count ih =>
    rw [waitsInARow, List.replicate_succ, permits, Nat.add_zero, perform_take_behind,
      List.iterate, ← waitsInARow]
    exact congrArg (List.cons _) (ih _)

/-- The first of several waits on a fresh limiter ends at once. -/
theorem permits_waitsInARow (limit : RateLimit) (resolution start count : Nat) :
    (fresh limit).permits resolution start (waitsInARow count) =
      List.iterate (limit.next resolution) start count := by
  cases count with
  | zero => rfl
  | succ count =>
    rw [waitsInARow, List.replicate_succ, permits, Nat.add_zero,
      perform_take_of_allowed rfl, List.iterate, ← waitsInARow]
    exact congrArg (List.cons start) (permits_waitsInARow_behind limit resolution start count)

theorem iterate_next_of_dvd {start : Nat} (onStep : resolution ∣ start)
    (whole : resolution ∣ limit.interval) (count : Nat) :
    List.iterate (limit.next resolution) start count =
      (List.range count).map fun index => start + index * limit.interval := by
  induction count generalizing start with
  | zero => rfl
  | succ count ih =>
    rw [List.iterate, RateLimit.next_of_dvd onStep whole, ih (Nat.dvd_add onStep whole),
      List.range_succ_eq_map, List.map_cons, List.map_map, Nat.zero_mul, Nat.add_zero]
    congr 1
    refine List.map_congr_left fun index _ => ?_
    rw [Function.comp_apply, Nat.succ_mul, Nat.add_assoc, Nat.add_comm limit.interval]

/-- An attempt is granted if no permit was given before or the last one is an interval back; a
refusal tells just how long it is until then, and only a granted attempt changes the limiter.  A
wait takes the permit at once or at the first step of the timers at which it is due, unless it is
cancelled before, in which case it leaves the limiter as it was.  Waits in a row end at their start
and then each at the first step that is not before an interval after the one before; this is the
interval itself where the first begins at a step and the interval is a whole number of steps. -/
theorem permits_on_time (resolution : Nat) :
    (∀ (limiter : RateLimiter) (now : Nat), limiter.Answers now ∧
      ∀ cancel, limiter.Ends resolution now cancel (limiter.take resolution now cancel) ∧
        ∀ waited, Retries resolution cancel limiter now waited ↔
          limiter.Ends resolution now cancel waited) ∧
    ∀ (limit : RateLimit) (start count : Nat),
      (fresh limit).permits resolution start (waitsInARow count) =
        List.iterate (limit.next resolution) start count ∧
      (resolution ∣ start → resolution ∣ limit.interval →
        (fresh limit).permits resolution start (waitsInARow count) =
          (List.range count).map fun index => start + index * limit.interval) := by
  constructor
  · intro limiter now
    refine ⟨limiter.answers now, fun cancel => ⟨limiter.take_ends resolution now cancel, ?_⟩⟩
    exact fun waited => ⟨Retries.ends, Ends.retries⟩
  · intro limit start count
    have row := permits_waitsInARow limit resolution start count
    refine ⟨row, fun onStep whole => ?_⟩
    rw [row, iterate_next_of_dvd onStep whole]

/-- Four permits in two seconds, and timers that fire at whole milliseconds. -/
theorem permits_on_time_half_seconds :
    let limit : RateLimit := ⟨4, 2⟩
    Timer.ofMillis 1 ∣ Timer.ofMillis 7 ∧ Timer.ofMillis 1 ∣ limit.interval ∧
      (fresh limit).permits (Timer.ofMillis 1) (Timer.ofMillis 7) (waitsInARow 3) =
        [Timer.ofMillis 7, Timer.ofMillis 507, Timer.ofMillis 1007] := by
  intro limit
  have onStep : Timer.ofMillis 1 ∣ Timer.ofMillis 7 := by decide
  have whole : Timer.ofMillis 1 ∣ limit.interval := by decide
  refine ⟨onStep, whole, ?_⟩
  rw [((permits_on_time (Timer.ofMillis 1)).2 limit _ 3).2 onStep whole]
  decide +kernel

/-- Three permits in a second are not a whole number of milliseconds apart, so that a wait for the
second one ends later than an interval after the first. -/
theorem not_taken_after_interval_three :
    ¬ ∀ (limiter : RateLimiter) (last now : Nat), limiter.last = some last → last ≤ now →
      (limiter.take (Timer.ofMillis 1) now none).instant =
        max now (last + limiter.limit.interval) := by
  intro always
  have third := always ⟨⟨3, 1⟩, some 0⟩ 0 0 rfl (Nat.le_refl 0)
  exact absurd third (by decide +kernel)

end RateLimiter

end NodeSteward
