import NodeSteward.Json.Decode
import NodeSteward.Time.Timer

/-!
# Limiting the rate of attempts

A limiter hands out permits with a fixed least distance between any two, so that no window of
time holds more than the configured number.  The first permit is immediate.  Whoever waits for a
permit may be cancelled and then takes none.
-/

namespace NodeSteward

/-- How many permits a window of time may hold. -/
structure RateLimit where
  maxRequests : UInt32
  windowSeconds : UInt32
  deriving DecidableEq, Repr

namespace RateLimit

/-- One permit in a second. -/
def standard : RateLimit := ⟨1, 1⟩

/-- The least distance between two permits in nanoseconds, rounded down; a limit of no permits
is taken as one. -/
def interval (limit : RateLimit) : Nat :=
  Timer.ofSeconds limit.windowSeconds.toNat / max 1 limit.maxRequests.toNat

def toJson (limit : RateLimit) : Json :=
  .ofMembers
    [("max_requests", .ofNat limit.maxRequests.toNat),
      ("window_seconds", .ofNat limit.windowSeconds.toNat)]

def decode? (source : Source) : Option RateLimit := do
  let slots ← source.slots? ["max_requests", "window_seconds"]
  return {
    maxRequests := ← slots.required "max_requests" Source.uint32?
    windowSeconds := ← slots.required "window_seconds" Source.uint32? }

end RateLimit

/-- What a limiter says about an attempt. -/
inductive Permission where
  | allowed
  /-- The next permit is available after so many nanoseconds. -/
  | exceeded (retryAfter : Nat)
  deriving DecidableEq, Repr

/-- A limiter with the instant of its last permit. -/
structure RateLimiter where
  limit : RateLimit
  last : Option Nat
  deriving DecidableEq, Repr

namespace RateLimiter

/-- A limiter that has given no permit. -/
def fresh (limit : RateLimit) : RateLimiter := ⟨limit, none⟩

/-- Whether a permit is available, without taking it. -/
def check (limiter : RateLimiter) (now : Nat) : Permission :=
  match limiter.last with
  | none => .allowed
  | some last =>
    if now < last + limiter.limit.interval then
      .exceeded (last + limiter.limit.interval - now)
    else .allowed

/-- Takes a permit if one is available. -/
def tryAcquire (limiter : RateLimiter) (now : Nat) : Permission × RateLimiter :=
  match limiter.check now with
  | .allowed => (.allowed, { limiter with last := some now })
  | .exceeded retryAfter => (.exceeded retryAfter, limiter)

/-- Forgets the last permit. -/
def reset (limiter : RateLimiter) : RateLimiter :=
  { limiter with last := none }

/-- How a wait for a permit ended. -/
structure Waited where
  granted : Bool
  /-- The instant at which the wait ended. -/
  instant : Nat
  limiter : RateLimiter
  deriving DecidableEq, Repr

/-- Waits for a permit.  An available one is taken at once, even when the wait is already
cancelled; otherwise the permit is taken at the next step of the timers, unless `cancel`, where
there is one, comes first.  A wait longer than timers allow is made up of several. -/
def take (limiter : RateLimiter) (resolution now : Nat) (cancel : Option Nat) : Waited :=
  match limiter.check now with
  | .allowed => ⟨true, now, { limiter with last := some now }⟩
  | .exceeded retryAfter =>
    let ready := Timer.wake resolution (now + retryAfter)
    match cancel with
    | none => ⟨true, ready, { limiter with last := some ready }⟩
    | some stop =>
      if stop < ready then ⟨false, max now stop, limiter⟩
      else ⟨true, ready, { limiter with last := some ready }⟩

end RateLimiter

end NodeSteward
