import NodeSteward.Channel.RateLimiter

/-!
# How many permits a window of time holds

A limiter keeps any two permits its interval apart, whatever is asked of it and when.  The interval
is the window divided by the configured number of permits and rounded down.  Where the division
leaves a remainder, as many intervals as there are permits are shorter than the window, and one
permit more fits into it.  So the limit is kept by exactly those configurations in which the number
of permits divides the window.
-/

namespace NodeSteward

namespace RateLimit

/-- The length of a window in nanoseconds. -/
def window (limit : RateLimit) : Nat :=
  Timer.ofSeconds limit.windowSeconds.toNat

theorem max_mul_interval_le (limit : RateLimit) :
    limit.maxRequests.toNat * limit.interval ≤ limit.window := by
  calc
    limit.maxRequests.toNat * limit.interval
        ≤ max 1 limit.maxRequests.toNat * limit.interval :=
      Nat.mul_le_mul_right _ (Nat.le_max_right _ _)
    _ ≤ limit.window := Nat.mul_div_le _ _

/-- As many intervals as permits fill the window exactly if nothing is lost by rounding. -/
theorem max_mul_interval_eq_iff (limit : RateLimit) :
    limit.maxRequests.toNat * limit.interval = limit.window ↔
      limit.maxRequests.toNat ∣ limit.window := by
  constructor
  · intro fills
    exact ⟨limit.interval, fills.symm⟩
  · intro divides
    rcases Nat.eq_zero_or_pos limit.maxRequests.toNat with none | some
    · rw [none, Nat.zero_mul]
      rw [none] at divides
      exact (Nat.eq_zero_of_zero_dvd divides).symm
    · have own : max 1 limit.maxRequests.toNat = limit.maxRequests.toNat := Nat.max_eq_right some
      rw [interval, own]
      exact Nat.mul_div_cancel' divides

end RateLimit

namespace RateLimiter

/-- A use of a limiter.  Waits that overlap with other uses are covered too: such a wait is a
series of attempts, one at its start and one whenever its timer fires. -/
inductive Use where
  | check
  | tryAcquire
  /-- Waits for a permit, and gives up when it is cancelled, if ever. -/
  | take (cancel : Option Nat)

/-- How a use ended. -/
structure Used where
  /-- The instant of the permit, where one was given. -/
  permit? : Option Nat
  /-- The instant at which the use ended. -/
  instant : Nat
  limiter : RateLimiter

namespace Use

def perform (resolution now : Nat) (limiter : RateLimiter) : Use → Used
  | check => ⟨none, now, limiter⟩
  | tryAcquire =>
    match limiter.tryAcquire now with
    | (.allowed, limiter) => ⟨some now, now, limiter⟩
    | (.exceeded _, limiter) => ⟨none, now, limiter⟩
  | take cancel =>
    let waited := limiter.take resolution now cancel
    ⟨if waited.granted then some waited.instant else none, waited.instant, waited.limiter⟩

end Use

/-- The instants of the permits that are given when a limiter is used again and again.  Each use
begins some time after the end of the one before. -/
def permits (resolution : Nat) : Nat → RateLimiter → List (Nat × Use) → List Nat
  | _, _, [] => []
  | now, limiter, (gap, use) :: uses =>
    let used := use.perform resolution (now + gap) limiter
    used.permit?.toList ++ permits resolution used.instant used.limiter uses

variable {limiter : RateLimiter} {resolution now : Nat}

theorem check_eq_allowed_iff :
    limiter.check now = .allowed ↔
      ∀ last, limiter.last = some last → last + limiter.limit.interval ≤ now := by
  unfold check
  cases limiter.last with
  | none => simp
  | some last => simp

/-- A permit that has to be waited for is due an interval after the last one. -/
theorem due_of_exceeded {retryAfter : Nat} (exceeded : limiter.check now = .exceeded retryAfter) :
    ∃ last, limiter.last = some last ∧ now + retryAfter = last + limiter.limit.interval := by
  unfold check at exceeded
  split at exceeded
  · cases exceeded
  · rename_i last held
    split at exceeded
    · rename_i early
      cases exceeded
      exact ⟨last, held, by omega⟩
    · cases exceeded

/-- When the timer of a wait fires, the permit is available. -/
theorem check_wake (resolution : Nat) {retryAfter : Nat}
    (exceeded : limiter.check now = .exceeded retryAfter) :
    limiter.check (Timer.wake resolution (now + retryAfter)) = .allowed := by
  rcases due_of_exceeded exceeded with ⟨last, held, due⟩
  rw [check_eq_allowed_iff]
  intro other same
  rw [held, Option.some_inj] at same
  subst same
  rw [← due]
  exact Timer.le_wake _ _

/-- A use leaves the limiter as it is, or gives a permit that is available then. -/
theorem Use.perform_cases (use : Use) (resolution now : Nat) (limiter : RateLimiter) :
    ((use.perform resolution now limiter).permit? = none ∧
        (use.perform resolution now limiter).limiter = limiter) ∨
      ∃ instant, (use.perform resolution now limiter).permit? = some instant ∧
        limiter.check instant = .allowed ∧
        (use.perform resolution now limiter).limiter = { limiter with last := some instant } := by
  cases use with
  | check => exact Or.inl ⟨rfl, rfl⟩
  | tryAcquire =>
    cases answered : limiter.check now with
    | allowed =>
      refine Or.inr ⟨now, ?_, answered, ?_⟩
      · simp [perform, RateLimiter.tryAcquire, answered]
      · simp [perform, RateLimiter.tryAcquire, answered]
    | exceeded retryAfter =>
      refine Or.inl ⟨?_, ?_⟩
      · simp [perform, RateLimiter.tryAcquire, answered]
      · simp [perform, RateLimiter.tryAcquire, answered]
  | take cancel =>
    cases answered : limiter.check now with
    | allowed =>
      refine Or.inr ⟨now, ?_, answered, ?_⟩
      · simp [perform, RateLimiter.take, answered]
      · simp [perform, RateLimiter.take, answered]
    | exceeded retryAfter =>
      have available := check_wake resolution answered
      cases cancel with
      | none =>
        refine Or.inr ⟨_, ?_, available, ?_⟩
        · simp [perform, RateLimiter.take, answered]
        · simp [perform, RateLimiter.take, answered]
      | some stop =>
        by_cases early : stop < Timer.wake resolution (now + retryAfter)
        · refine Or.inl ⟨?_, ?_⟩
          · simp [perform, RateLimiter.take, answered, early]
          · simp [perform, RateLimiter.take, answered, early]
        · refine Or.inr ⟨_, ?_, available, ?_⟩
          · simp [perform, RateLimiter.take, answered, early]
          · simp [perform, RateLimiter.take, answered, early]

/-- Every permit comes an interval after the one before, the first one after the last permit that
was given earlier. -/
theorem spaced_permits (uses : List (Nat × Use)) (resolution now : Nat) (limiter : RateLimiter) :
    (∀ last, limiter.last = some last →
      ∀ instant ∈ limiter.permits resolution now uses, last + limiter.limit.interval ≤ instant) ∧
    (limiter.permits resolution now uses).Pairwise
      (fun earlier later => earlier + limiter.limit.interval ≤ later) := by
  induction uses generalizing now limiter with
  | nil => simp [permits]
  | cons timed uses ih =>
    rcases timed with ⟨gap, use⟩
    rw [permits]
    rcases use.perform_cases resolution (now + gap) limiter with
      ⟨unpermitted, unchanged⟩ | ⟨permit, permitted, available, changed⟩
    · rw [unpermitted, unchanged]
      exact ih _ limiter
    · have later := ih (use.perform resolution (now + gap) limiter).instant
        { limiter with last := some permit }
      have behind := later.1 permit rfl
      dsimp only at behind
      rw [permitted, changed]
      constructor
      · intro last held instant member
        have first := check_eq_allowed_iff.mp available last held
        rcases List.mem_cons.mp member with rfl | member
        · exact first
        · have := behind instant member
          omega
      · exact List.pairwise_cons.mpr ⟨behind, later.2⟩

end RateLimiter

/-! ## Permits in a window -/

/-- The last of some instants that keep a distance is as many distances after the first one as
there are instants between. -/
theorem exists_far_of_spaced {distance first : Nat} {rest : List Nat}
    (spaced : (first :: rest).Pairwise (fun earlier later => earlier + distance ≤ later)) :
    ∃ last ∈ first :: rest, first + rest.length * distance ≤ last := by
  induction rest generalizing first with
  | nil => exact ⟨first, List.mem_singleton_self first, by simp⟩
  | cons second rest ih =>
    rcases List.pairwise_cons.mp spaced with ⟨front, behind⟩
    rcases ih behind with ⟨last, member, far⟩
    refine ⟨last, List.mem_cons_of_mem _ member, ?_⟩
    have near := front second List.mem_cons_self
    rw [List.length_cons, Nat.succ_mul]
    omega

namespace RateLimiter

/-- The permits of a window of time. -/
def within (start length : Nat) (permits : List Nat) : List Nat :=
  permits.filter fun instant => start ≤ instant && instant < start + length

theorem mem_within {start length instant : Nat} {permits : List Nat} :
    instant ∈ within start length permits ↔
      instant ∈ permits ∧ start ≤ instant ∧ instant < start + length := by
  simp [within]

/-- All permits of a window but one are an interval apart from the next, and all this in it. -/
theorem mul_interval_lt_window {start length distance : Nat} {permits : List Nat}
    (spaced : permits.Pairwise (fun earlier later => earlier + distance ≤ later))
    {count : Nat} (many : count < (within start length permits).length) :
    count * distance < length := by
  have spacedWithin := spaced.sublist (List.filter_sublist
    (p := fun instant => start ≤ instant && instant < start + length))
  cases held : within start length permits with
  | nil =>
    rw [held] at many
    exact absurd many (Nat.not_lt_zero _)
  | cons first rest =>
    have early : first ∈ within start length permits := by rw [held]; exact List.mem_cons_self
    rw [← within, held] at spacedWithin
    rcases exists_far_of_spaced spacedWithin with ⟨last, member, far⟩
    rw [← held] at member
    have begins := (mem_within.mp early).2.1
    have ends := (mem_within.mp member).2.2
    rw [held, List.length_cons] at many
    have fewer : count * distance ≤ rest.length * distance :=
      Nat.mul_le_mul_right _ (Nat.le_of_lt_succ many)
    omega

/-- Attempts that come one distance after the other. -/
def steadyAttempts (distance count : Nat) : List (Nat × Use) :=
  List.replicate count (distance, .tryAcquire)

/-- Each of these attempts gets its permit, if the distance is the interval. -/
theorem permits_steadyAttempts {distance : Nat} (resolution count now : Nat)
    (limiter : RateLimiter) (apart : limiter.limit.interval = distance)
    (ready : ∀ last, limiter.last = some last → last ≤ now) :
    limiter.permits resolution now (steadyAttempts distance count) =
      (List.range count).map fun index => now + (index + 1) * distance := by
  induction count generalizing now limiter with
  | zero => rfl
  | succ count ih =>
    have available : limiter.check (now + distance) = .allowed := by
      rw [check_eq_allowed_iff, apart]
      intro last held
      exact Nat.add_le_add_right (ready last held) _
    have acquired : Use.tryAcquire.perform resolution (now + distance) limiter =
        ⟨some (now + distance), now + distance,
          { limiter with last := some (now + distance) }⟩ := by
      simp [Use.perform, RateLimiter.tryAcquire, available]
    have next := ih (now + distance) { limiter with last := some (now + distance) } apart
      (by rintro last ⟨⟩; exact Nat.le_refl _)
    rw [steadyAttempts, List.replicate_succ, permits, acquired, ← steadyAttempts]
    dsimp only
    rw [next, List.range_succ_eq_map, List.map_cons, List.map_map, Option.toList_some,
      List.singleton_append, Nat.zero_add, Nat.one_mul]
    congr 1
    refine List.map_congr_left fun index _ => ?_
    simp only [Function.comp_apply, Nat.succ_eq_add_one, Nat.succ_mul]
    omega

/-- If the intervals are shorter than the window together, one attempt more than configured gets
its permit in the window that begins with the first one. -/
theorem length_within_steadyAttempts {limit : RateLimit}
    (short : limit.maxRequests.toNat * limit.interval < limit.window) :
    (within limit.interval limit.window ((RateLimiter.fresh limit).permits 0 0
      (steadyAttempts limit.interval (limit.maxRequests.toNat + 1)))).length =
        limit.maxRequests.toNat + 1 := by
  have own : (RateLimiter.fresh limit).limit.interval = limit.interval := rfl
  have unused : ∀ last, (RateLimiter.fresh limit).last = some last → last ≤ 0 := by
    intro last held
    cases held
  have inside : ∀ instant ∈ (List.range (limit.maxRequests.toNat + 1)).map
      (fun index => 0 + (index + 1) * limit.interval),
      (limit.interval ≤ instant && instant < limit.interval + limit.window) = true := by
    intro instant member
    rcases List.mem_map.mp member with ⟨index, listed, rfl⟩
    have bound : index * limit.interval ≤ limit.maxRequests.toNat * limit.interval :=
      Nat.mul_le_mul_right _ (Nat.le_of_lt_succ (List.mem_range.mp listed))
    rw [Nat.zero_add, Nat.succ_mul, Bool.and_eq_true, decide_eq_true_eq, decide_eq_true_eq]
    omega
  rw [permits_steadyAttempts 0 _ 0 _ own unused, within, List.filter_eq_self.mpr inside,
    List.length_map, List.length_range]

end RateLimiter

/-- No window of time holds more permits than configured, in whatever way a limiter is used. -/
def RateLimit.IsKept (limit : RateLimit) : Prop :=
  ∀ (resolution now : Nat) (uses : List (Nat × RateLimiter.Use)) (start : Nat),
    (RateLimiter.within start limit.window
      ((RateLimiter.fresh limit).permits resolution now uses)).length ≤ limit.maxRequests.toNat

/-- A limit is kept if and only if the configured number of permits divides the window: only then
nothing is lost when the interval is rounded down to nanoseconds. -/
theorem RateLimit.isKept_iff_dvd (limit : RateLimit) :
    limit.IsKept ↔ limit.maxRequests.toNat ∣ limit.window := by
  rw [← max_mul_interval_eq_iff]
  constructor
  · intro kept
    refine Nat.le_antisymm limit.max_mul_interval_le (Nat.le_of_not_lt fun short => ?_)
    have few := kept 0 0 (RateLimiter.steadyAttempts limit.interval (limit.maxRequests.toNat + 1))
      limit.interval
    rw [RateLimiter.length_within_steadyAttempts short] at few
    exact absurd few (Nat.not_succ_le_self _)
  · intro fills resolution now uses start
    have spaced := (RateLimiter.spaced_permits uses resolution now (.fresh limit)).2
    refine Nat.le_of_not_lt fun many => ?_
    have short := RateLimiter.mul_interval_lt_window spaced many
    exact Nat.lt_irrefl _ (fills.symm ▸ short)

/-- Three permits in a second are a third of a second apart, rounded down.  Four attempts then all
get a permit within the second. -/
theorem RateLimit.not_isKept_three :
    ¬ ∀ limit : RateLimit, 1 ≤ limit.maxRequests → 1 ≤ limit.windowSeconds → limit.IsKept := by
  intro always
  have kept := always ⟨3, 1⟩ (by decide) (by decide)
  let attempts : List (Nat × RateLimiter.Use) :=
    [(0, .tryAcquire), (333333333, .tryAcquire), (333333333, .tryAcquire), (333333333, .tryAcquire)]
  have few := kept 0 0 attempts 0
  have four : RateLimiter.within 0 (RateLimit.window ⟨3, 1⟩)
      ((RateLimiter.fresh ⟨3, 1⟩).permits 0 0 attempts) =
        [0, 333333333, 666666666, 999999999] := by decide +kernel
  rw [four] at few
  exact absurd few (by decide)

end NodeSteward
