import NodeSteward.Channel.Error
import NodeSteward.Channel.RateLimiter

/-!
# Keeping a subscription open

A subscription delivers items for as long as its stream lasts.  A stream that fails or ends is
followed by a new subscription, and one that cannot be opened counts as a stream that ends at
once; an item that cannot be stored is given up.  Each of these is followed by a wait for a
permit of the limiter, so that the node is not overrun.  Only when the first subscription fails
does the whole end with an error, which is the one that the node gave.

What the node does is given as a script: for each attempt to subscribe, whether it is refused, or
which items its stream delivers and whether it stays open after them.  An attempt beyond the
script opens a stream that stays silent.
-/

namespace NodeSteward

/-- An item of a stream, or the failure to deliver it. -/
structure Delivery (ι : Type) where
  /-- The nanoseconds from when the item is asked for until it comes. -/
  delay : Nat
  item : Except RpcError ι

/-- What becomes of an attempt to subscribe. -/
inductive Attempt (ι : Type) where
  | refused (cause : RpcError)
  /-- A stream that ends after its items unless it stays open. -/
  | stream (deliveries : List (Delivery ι)) (staysOpen : Bool)

/-- When timers fire, and when everything is cancelled, if ever. -/
structure Timing where
  resolution : Nat
  cancel : Option Nat

namespace Timing

/-- True when the cancellation comes before an instant. -/
def cancelledBefore (timing : Timing) (instant : Nat) : Bool :=
  timing.cancel.any (fun cancel => cancel < instant)

end Timing

/-- How far a subscription has come. -/
structure Following (σ : Type) where
  state : σ
  limiter : RateLimiter
  now : Nat
  /-- The instants of the attempts to subscribe, the oldest first. -/
  attempts : List Nat
  /-- The instants at which a permit was taken, the oldest first. -/
  permits : List Nat

/-- How a stream was left. -/
inductive StreamEnd where
  /-- It failed or ended. -/
  | broken
  /-- It stays open and delivers nothing more. -/
  | silent
  /-- The cancellation came first. -/
  | cancelled
  deriving DecidableEq, Repr

/-- How a subscription ended. -/
inductive FollowingEnd where
  /-- The first attempt was refused. -/
  | refused (cause : RpcError)
  /-- It was cancelled. -/
  | cancelled
  /-- It goes on waiting for a silent stream. -/
  | waiting
  deriving DecidableEq, Repr

namespace Following

variable {ι σ : Type}

/-- Follows a stream that was opened.  `store` stores an item and tells whether that worked. -/
def followStream (timing : Timing) (store : ι → σ → Bool × σ) (staysOpen : Bool) :
    List (Delivery ι) → Following σ → StreamEnd × Following σ
  | [], following => (if staysOpen then .silent else .broken, following)
  | delivery :: rest, following =>
    let ready :=
      if delivery.delay = 0 then following.now
      else Timer.expiry timing.resolution following.now delivery.delay
    if timing.cancelledBefore ready then (.cancelled, following)
    else
      match delivery.item with
      | .error _ => (.broken, { following with now := ready })
      | .ok item =>
        let (stored, state) := store item following.state
        if stored then
          followStream timing store staysOpen rest { following with state, now := ready }
        else
          let waited := following.limiter.take timing.resolution ready timing.cancel
          let next := { following with state, limiter := waited.limiter, now := waited.instant }
          if waited.granted then
            followStream timing store staysOpen rest
              { next with permits := next.permits ++ [waited.instant] }
          else (.cancelled, next)

/-- Waits for a permit and subscribes again, as often as streams break. -/
def resubscribe (timing : Timing) (store : ι → σ → Bool × σ) :
    List (Attempt ι) → Following σ → FollowingEnd × Following σ
  | script, following =>
    let waited := following.limiter.take timing.resolution following.now timing.cancel
    let next := { following with limiter := waited.limiter, now := waited.instant }
    if waited.granted then
      let subscribed :=
        { next with
          attempts := next.attempts ++ [waited.instant]
          permits := next.permits ++ [waited.instant] }
      match script with
      | [] => (if timing.cancel.isSome then .cancelled else .waiting, subscribed)
      | .refused _ :: script => resubscribe timing store script subscribed
      | .stream deliveries staysOpen :: script =>
        match followStream timing store staysOpen deliveries subscribed with
        | (.broken, following) => resubscribe timing store script following
        | (.cancelled, following) => (.cancelled, following)
        | (.silent, following) =>
          (if timing.cancel.isSome then .cancelled else .waiting, following)
    else (.cancelled, next)

/-- Subscribes and follows the streams until the cancellation. -/
def run (timing : Timing) (store : ι → σ → Bool × σ) (script : List (Attempt ι))
    (following : Following σ) : FollowingEnd × Following σ :=
  let subscribed := { following with attempts := following.attempts ++ [following.now] }
  match script with
  | [] => (if timing.cancel.isSome then .cancelled else .waiting, subscribed)
  | .refused cause :: _ => (.refused cause, subscribed)
  | .stream deliveries staysOpen :: script =>
    match followStream timing store staysOpen deliveries subscribed with
    | (.broken, following) => resubscribe timing store script following
    | (.cancelled, following) => (.cancelled, following)
    | (.silent, following) => (if timing.cancel.isSome then .cancelled else .waiting, following)

end Following

end NodeSteward
