import NodeSteward.Channel.Intake

/-!
# A subscription loses nothing and repeats nothing

Of each stream that is opened, the items are handed to the store one after the other until the
stream fails or ends; then another stream is opened.  Whether the store took an item, how many
attempts were refused in between and how long the waits were makes no difference to that.  Unless
it is cancelled, only a refusal of the first attempt ends a subscription.

What is handed over is seen by a store that takes notes.  It goes the same way as the store itself,
step by step.
-/

namespace NodeSteward

namespace Attempt

variable {ι : Type}

/-- The items that come before the stream fails. -/
def delivered : Attempt ι → List ι
  | .refused _ => []
  | .stream deliveries _ =>
    ((deliveries.map Delivery.item).takeWhile Except.isOk).filterMap Except.toOption

/-- True for a stream that neither fails nor ends. -/
def lasts : Attempt ι → Bool
  | .refused _ => false
  | .stream deliveries staysOpen => staysOpen && deliveries.all (fun delivery => delivery.item.isOk)

/-- The attempts that are made: after a stream that lasts there are no more. -/
def made : List (Attempt ι) → List (Attempt ι)
  | [] => []
  | attempt :: script => attempt :: if attempt.lasts then [] else made script

/-- What the attempts of a script deliver, stream after stream. -/
def handedOver (script : List (Attempt ι)) : List ι :=
  (made script).flatMap delivered

theorem delivered_nil (staysOpen : Bool) : (stream (ι := ι) [] staysOpen).delivered = [] :=
  rfl

variable {delivery : Delivery ι} {deliveries : List (Delivery ι)} {staysOpen : Bool}

theorem delivered_of_error {cause : RpcError} (failed : delivery.item = .error cause) :
    (stream (delivery :: deliveries) staysOpen).delivered = [] := by
  simp only [delivered, List.map_cons, failed]
  rfl

theorem delivered_of_ok {item : ι} (came : delivery.item = .ok item) :
    (stream (delivery :: deliveries) staysOpen).delivered =
      item :: (stream deliveries staysOpen).delivered := by
  simp only [delivered, List.map_cons, came]
  rfl

theorem lasts_of_error {cause : RpcError} (failed : delivery.item = .error cause) :
    (stream (delivery :: deliveries) staysOpen).lasts = false := by
  simp [lasts, failed, Except.isOk, Except.toBool]

theorem lasts_of_ok {item : ι} (came : delivery.item = .ok item) :
    (stream (delivery :: deliveries) staysOpen).lasts = (stream deliveries staysOpen).lasts := by
  simp [lasts, came, Except.isOk, Except.toBool]

theorem handedOver_nil : handedOver ([] : List (Attempt ι)) = [] :=
  rfl

theorem handedOver_cons (attempt : Attempt ι) (script : List (Attempt ι)) :
    handedOver (attempt :: script) =
      attempt.delivered ++ if attempt.lasts then [] else handedOver script := by
  rw [handedOver, made, List.flatMap_cons]
  split <;> rfl

/-- What the first attempts deliver does not depend on the later ones. -/
theorem handedOver_prefix (script later : List (Attempt ι)) :
    handedOver script <+: handedOver (script ++ later) := by
  induction script with
  | nil => exact List.nil_prefix
  | cons attempt script ih =>
    rw [List.cons_append, handedOver_cons, handedOver_cons, List.prefix_append_right_inj]
    split
    · exact List.prefix_refl _
    · exact ih

end Attempt

namespace Following

variable {ι σ : Type}

/-- The store, with notes of the items that it is given. -/
def noting (store : ι → σ → Bool × σ) (item : ι) (state : σ × List ι) : Bool × (σ × List ι) :=
  ((store item state.1).1, (store item state.1).2, state.2 ++ [item])

/-- The same subscription, with notes. -/
def withNotes (following : Following σ) (notes : List ι) : Following (σ × List ι) :=
  { following with state := (following.state, notes) }

section Steps

variable (resolution : Nat) (store : ι → σ → Bool × σ) (following : Following σ)

/-- The instant at which an item comes that was asked for now. -/
def arrival (delay : Nat) : Nat :=
  if delay = 0 then following.now else Timer.expiry resolution following.now delay

/-- The subscription after an item was handed over, and a permit was taken if it was not stored. -/
def afterItem (delay : Nat) (item : ι) : Following σ :=
  let ready := following.arrival resolution delay
  let (stored, state) := store item following.state
  if stored then { following with state, now := ready }
  else
    let waited := following.limiter.take resolution ready none
    { following with
      state
      limiter := waited.limiter
      now := waited.instant
      permits := following.permits ++ [waited.instant] }

/-- The subscription after a permit was taken for another attempt. -/
def resubscribed : Following σ :=
  let waited := following.limiter.take resolution following.now none
  { following with
    limiter := waited.limiter
    now := waited.instant
    attempts := following.attempts ++ [waited.instant]
    permits := following.permits ++ [waited.instant] }

/-- The subscription when the stream of an attempt has been followed. -/
def afterAttempt (attempt : Attempt ι) : Following σ :=
  match attempt with
  | .refused _ => following
  | .stream deliveries staysOpen =>
    (followStream ⟨resolution, none⟩ store staysOpen deliveries following).2

end Steps

end Following

/-- Nobody can be denied a permit who is not cancelled. -/
theorem RateLimiter.granted_take (limiter : RateLimiter) (resolution now : Nat) :
    (limiter.take resolution now none).granted = true := by
  unfold take
  split <;> rfl

namespace Following

variable {ι σ : Type} {resolution : Nat} {store : ι → σ → Bool × σ} {following : Following σ}
  {delivery : Delivery ι} {deliveries : List (Delivery ι)} {staysOpen : Bool}

theorem followStream_of_error {cause : RpcError} (failed : delivery.item = .error cause) :
    followStream ⟨resolution, none⟩ store staysOpen (delivery :: deliveries) following =
      (.broken, { following with now := following.arrival resolution delivery.delay }) := by
  rw [followStream, failed]
  rfl

theorem followStream_of_ok {item : ι} (came : delivery.item = .ok item) :
    followStream ⟨resolution, none⟩ store staysOpen (delivery :: deliveries) following =
      followStream ⟨resolution, none⟩ store staysOpen deliveries
        (following.afterItem resolution store delivery.delay item) := by
  simp only [followStream, came, Timing.cancelledBefore, Option.any_none, Bool.false_eq_true,
    if_false, RateLimiter.granted_take, if_true]
  rw [afterItem, arrival]
  rcases store item following.state with ⟨stored, state⟩
  cases stored with
  | true => rfl
  | false => rfl

/-- A stream is left silent if it lasts, and broken otherwise. -/
theorem followStream_eq (deliveries : List (Delivery ι)) (following : Following σ) :
    followStream ⟨resolution, none⟩ store staysOpen deliveries following =
      (if (Attempt.stream deliveries staysOpen).lasts then .silent else .broken,
        following.afterAttempt resolution store (.stream deliveries staysOpen)) := by
  refine Prod.ext ?_ rfl
  induction deliveries generalizing following with
  | nil => cases staysOpen <;> rfl
  | cons delivery deliveries ih =>
    cases came : delivery.item with
    | error cause =>
      rw [followStream_of_error came, Attempt.lasts_of_error came]
      rfl
    | ok item =>
      rw [followStream_of_ok came, Attempt.lasts_of_ok came]
      exact ih _

theorem resubscribe_nil :
    resubscribe ⟨resolution, none⟩ store [] following =
      (.waiting, following.resubscribed resolution) := by
  rw [resubscribe]
  dsimp only
  rw [if_pos (RateLimiter.granted_take following.limiter resolution following.now)]
  rfl

theorem resubscribe_cons (attempt : Attempt ι) (script : List (Attempt ι)) :
    resubscribe ⟨resolution, none⟩ store (attempt :: script) following =
      if attempt.lasts then
        (.waiting, (following.resubscribed resolution).afterAttempt resolution store attempt)
      else
        resubscribe ⟨resolution, none⟩ store script
          ((following.resubscribed resolution).afterAttempt resolution store attempt) := by
  have granted := RateLimiter.granted_take following.limiter resolution following.now
  cases attempt with
  | refused cause =>
    rw [resubscribe]
    dsimp only
    rw [if_pos granted]
    rfl
  | stream deliveries staysOpen =>
    rw [resubscribe]
    dsimp only
    rw [if_pos granted, followStream_eq]
    cases (Attempt.stream deliveries staysOpen).lasts <;> rfl

/-- The first attempt is made at once. -/
def subscribed (following : Following σ) : Following σ :=
  { following with attempts := following.attempts ++ [following.now] }

theorem run_cons_of_stream (deliveries : List (Delivery ι)) (script : List (Attempt ι)) :
    run ⟨resolution, none⟩ store (.stream deliveries staysOpen :: script) following =
      if (Attempt.stream deliveries staysOpen).lasts then
        (.waiting,
          following.subscribed.afterAttempt resolution store (.stream deliveries staysOpen))
      else
        resubscribe ⟨resolution, none⟩ store script
          (following.subscribed.afterAttempt resolution store (.stream deliveries staysOpen)) := by
  rw [run]
  dsimp only
  rw [followStream_eq]
  cases (Attempt.stream deliveries staysOpen).lasts <;> rfl

/-- Without cancellation a subscription goes on and on. -/
theorem fst_resubscribe (script : List (Attempt ι)) (following : Following σ) :
    (resubscribe ⟨resolution, none⟩ store script following).1 = .waiting := by
  induction script generalizing following with
  | nil => rw [resubscribe_nil]
  | cons attempt script ih =>
    rw [resubscribe_cons]
    split
    · rfl
    · exact ih _

/-! ## Notes of what is handed over -/

theorem afterItem_noting (delay : Nat) (item : ι) (notes : List ι) :
    (following.withNotes notes).afterItem resolution (noting store) delay item =
      (following.afterItem resolution store delay item).withNotes (notes ++ [item]) := by
  unfold afterItem noting withNotes
  dsimp only
  rcases store item following.state with ⟨stored, state⟩
  cases stored <;> rfl

theorem followStream_noting (deliveries : List (Delivery ι)) (following : Following σ)
    (notes : List ι) :
    followStream ⟨resolution, none⟩ (noting store) staysOpen deliveries
        (following.withNotes notes) =
      ((followStream ⟨resolution, none⟩ store staysOpen deliveries following).1,
        (followStream ⟨resolution, none⟩ store staysOpen deliveries following).2.withNotes
          (notes ++ (Attempt.stream deliveries staysOpen).delivered)) := by
  induction deliveries generalizing following notes with
  | nil =>
    rw [Attempt.delivered_nil, List.append_nil]
    rfl
  | cons delivery deliveries ih =>
    cases came : delivery.item with
    | error cause =>
      rw [followStream_of_error came, followStream_of_error came,
        Attempt.delivered_of_error came, List.append_nil]
      rfl
    | ok item =>
      rw [followStream_of_ok came, followStream_of_ok came, Attempt.delivered_of_ok came,
        afterItem_noting, ih, List.append_assoc]
      rfl

theorem afterAttempt_noting (attempt : Attempt ι) (following : Following σ) (notes : List ι) :
    (following.withNotes notes).afterAttempt resolution (noting store) attempt =
      (following.afterAttempt resolution store attempt).withNotes
        (notes ++ attempt.delivered) := by
  cases attempt with
  | refused cause =>
    rw [Attempt.delivered, List.append_nil]
    rfl
  | stream deliveries staysOpen =>
    rw [afterAttempt, followStream_noting]
    rfl

theorem resubscribe_noting (script : List (Attempt ι)) (following : Following σ)
    (notes : List ι) :
    resubscribe ⟨resolution, none⟩ (noting store) script (following.withNotes notes) =
      (.waiting, (resubscribe ⟨resolution, none⟩ store script following).2.withNotes
        (notes ++ Attempt.handedOver script)) := by
  refine Prod.ext (fst_resubscribe script _) ?_
  induction script generalizing following notes with
  | nil =>
    rw [resubscribe_nil, resubscribe_nil, Attempt.handedOver_nil, List.append_nil]
    rfl
  | cons attempt script ih =>
    have first : (following.withNotes notes).resubscribed resolution =
        (following.resubscribed resolution).withNotes notes := rfl
    rw [resubscribe_cons, resubscribe_cons, first, afterAttempt_noting,
      Attempt.handedOver_cons]
    split
    · rw [List.append_nil]
    · rw [← List.append_assoc]
      exact ih _ _

/-- A subscription that takes notes goes the same way, and notes what the script delivers. -/
theorem run_noting (script : List (Attempt ι)) (following : Following σ)
    (taken : ∀ cause later, script ≠ .refused cause :: later) :
    (following.withNotes []).run ⟨resolution, none⟩ (noting store) script =
      (.waiting, (following.run ⟨resolution, none⟩ store script).2.withNotes
        (Attempt.handedOver script)) := by
  have first : (following.withNotes ([] : List ι)).subscribed =
      following.subscribed.withNotes [] := rfl
  cases script with
  | nil => rfl
  | cons attempt script =>
    cases attempt with
    | refused cause => exact absurd rfl (taken cause script)
    | stream deliveries staysOpen =>
      rw [run_cons_of_stream, run_cons_of_stream, first, afterAttempt_noting,
        Attempt.handedOver_cons, List.nil_append]
      split
      · rw [List.append_nil]
      · exact resubscribe_noting _ _ _

theorem fst_run (script : List (Attempt ι)) (following : Following σ)
    (taken : ∀ cause later, script ≠ .refused cause :: later) :
    (following.run ⟨resolution, none⟩ store script).1 = .waiting := by
  cases script with
  | nil => rfl
  | cons attempt script =>
    cases attempt with
    | refused cause => exact absurd rfl (taken cause script)
    | stream deliveries staysOpen =>
      rw [run_cons_of_stream]
      split
      · rfl
      · exact fst_resubscribe _ _

end Following

namespace ChannelUpdate

open Following (noting)

/-- Without cancellation, a subscription to channel updates ends only when its first attempt is
refused: with the error that the node gave, whichever it is, and without having stored anything.
Otherwise it goes on, and it hands over to be recorded, in order and each once, the updates that
each opened stream delivers before it fails, whatever the store makes of them.  What the attempts
of a script deliver comes first in every longer script, so that this holds of endless ones too. -/
theorem follow_hands_over_exactly {σ : Type} (store : Handler channelCalls σ) (listening : Bool)
    (patience : Nat) (clock : Timestamp) (resolution : Nat) (script : List (Attempt ChannelUpdate))
    (following : Following (σ × List Fact)) :
    (∀ cause later, script = .refused cause :: later →
      follow store listening patience clock ⟨resolution, none⟩ script following =
        (.error (.rpc cause),
          { following with attempts := following.attempts ++ [following.now] })) ∧
    ((∀ cause later, script ≠ .refused cause :: later) →
      (following.run ⟨resolution, none⟩ (storeIn store listening patience clock) script).1 =
          .waiting ∧
        (following.withNotes []).run ⟨resolution, none⟩
            (noting (storeIn store listening patience clock)) script =
          (.waiting,
            (follow store listening patience clock ⟨resolution, none⟩ script
              following).2.withNotes (Attempt.handedOver script))) ∧
    ∀ later, Attempt.handedOver script <+: Attempt.handedOver (script ++ later) := by
  refine ⟨?_, ?_, Attempt.handedOver_prefix script⟩
  · rintro cause later rfl
    rfl
  · intro taken
    exact ⟨Following.fst_run script following taken, Following.run_noting script following taken⟩

/-- A stream that fails after two updates, of which the second cannot be recorded; a refused
attempt; and a stream that stays open. -/
def interrupted : List (Attempt ChannelUpdate) :=
  [.stream [⟨0, .ok (.open ⟨7, "ab:0", "key", 5000, false, true, true⟩)⟩,
      ⟨0, .ok (.inactive ⟨[], 0⟩)⟩, ⟨0, .error (.stream "subscribe_channel_events" "reset")⟩,
      ⟨0, .ok (.open ⟨8, "cd:0", "key", 5000, false, true, true⟩)⟩] true,
    .refused (.call "subscribe_channel_events" "unreachable"),
    .stream [⟨0, .ok (.closed ⟨7, "ab:0", "key", 5000, "ee", 700, 0, .breach⟩)⟩] true]

/-- The update after the failure is not handed over, and the others are, although one of them is
not recorded.  If the attempt that is refused were the first one, its error would be the end. -/
theorem follow_hands_over_exactly_interrupted :
    let idle : Following (ChannelStore × List Fact) := ⟨(.empty, []), .fresh .standard, 0, [], []⟩
    let save := storeIn ChannelStore.handler true 3 .epoch
    (∀ cause later, interrupted ≠ .refused cause :: later) ∧
      (idle.run ⟨0, none⟩ save interrupted).1 = .waiting ∧
      ((idle.withNotes []).run ⟨0, none⟩ (noting save) interrupted).2.state.2 =
        [.open ⟨7, "ab:0", "key", 5000, false, true, true⟩, .inactive ⟨[], 0⟩,
          .closed ⟨7, "ab:0", "key", 5000, "ee", 700, 0, .breach⟩] ∧
      interrupted.drop 1 =
        .refused (.call "subscribe_channel_events" "unreachable") :: interrupted.drop 2 ∧
      (follow ChannelStore.handler true 3 .epoch ⟨0, none⟩ (interrupted.drop 1) idle).1 =
        .error (.rpc (.call "subscribe_channel_events" "unreachable")) := by
  intro idle save
  have opened : ∀ cause later, interrupted ≠ .refused cause :: later := fun _ _ => nofun
  have goesOn :=
    (follow_hands_over_exactly ChannelStore.handler true 3 .epoch 0 interrupted idle).2.1 opened
  have ends := (follow_hands_over_exactly ChannelStore.handler true 3 .epoch 0 (interrupted.drop 1)
    idle).1 (.call "subscribe_channel_events" "unreachable") (interrupted.drop 2) rfl
  refine ⟨opened, goesOn.1, ?_, rfl, congrArg Prod.fst ends⟩
  rw [goesOn.2]
  rfl

end ChannelUpdate

end NodeSteward
