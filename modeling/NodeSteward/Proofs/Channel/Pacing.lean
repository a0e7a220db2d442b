import NodeSteward.Proofs.Channel.Delivery
import NodeSteward.Proofs.Channel.Permits

/-!
# The pace of a subscription

A subscription waits for a permit after every stream that fails or ends, before it subscribes again,
and after every item that could not be stored, before it goes on.  All these waits are listed here
in their order, with the instants at which they began and ended.

The permits of one limiter are its interval apart, whatever the waits were for, and so are all
attempts but the first.  A wait ends at the first step of the timers that is not before an interval
after its start, or earlier; this can be later than the interval itself, because timers fire only
at steps.  A cancellation that comes during a wait ends the subscription without an error and
without another attempt.
-/

namespace NodeSteward

/-- A wait for a permit. -/
structure Wait where
  began : Nat
  waited : RateLimiter.Waited
  /-- True if the permit is for another attempt to subscribe, false if it is to go on after an item
  that was not stored. -/
  renews : Bool
  deriving DecidableEq, Repr

namespace Wait

def ended (wait : Wait) : Nat := wait.waited.instant

def granted (wait : Wait) : Bool := wait.waited.granted

/-- The instants at which permits were taken. -/
def permits (waits : List Wait) : List Nat :=
  (waits.filter granted).map ended

/-- The instants at which permits were taken to subscribe again. -/
def renewals (waits : List Wait) : List Nat :=
  permits (waits.filter renews)

/-- A wait does not last longer than it has to. -/
structure Fits (timing : Timing) (interval : Nat) (wait : Wait) : Prop where
  passes : wait.began ≤ wait.ended
  /-- No step of the timers is left out. -/
  short : wait.ended ≤ Timer.wake timing.resolution (wait.began + interval)
  /-- A permit that had to be waited for was not cancelled before. -/
  onTime : wait.granted = true → wait.began < wait.ended →
    timing.cancelledBefore wait.ended = false
  /-- A wait without a permit ends with the cancellation. -/
  cancelled : wait.granted = false →
    ∃ stop, timing.cancel = some stop ∧ wait.ended = max wait.began stop

variable {wait : Wait} {waits : List Wait}

theorem permits_cons_of_granted (granted : wait.granted = true) :
    permits (wait :: waits) = wait.ended :: permits waits := by
  rw [permits, List.filter_cons_of_pos granted]
  rfl

theorem permits_of_refused (refused : wait.granted = false) : permits [wait] = [] := by
  rw [permits, List.filter_cons_of_neg (by rw [refused]; exact Bool.false_ne_true)]
  rfl

theorem renewals_cons_of_renews (granted : wait.granted = true) (renews : wait.renews = true) :
    renewals (wait :: waits) = wait.ended :: renewals waits := by
  rw [renewals, List.filter_cons_of_pos renews, permits_cons_of_granted granted]
  rfl

theorem renewals_cons_of_not_renews (goesOn : wait.renews = false) :
    renewals (wait :: waits) = renewals waits := by
  rw [renewals, List.filter_cons_of_neg (by rw [goesOn]; exact Bool.false_ne_true)]
  rfl

theorem renewals_sublist_permits (waits : List Wait) :
    (renewals waits).Sublist (permits waits) :=
  (List.filter_sublist.filter granted).map ended

end Wait

namespace RateLimiter

/-- What becomes of a wait for a permit. -/
inductive Takes (limiter : RateLimiter) (timing : Timing) (now : Nat) : Waited → Prop
  | atOnce (available : limiter.check now = .allowed) :
    Takes limiter timing now ⟨true, now, { limiter with last := some now }⟩
  /-- The permit is taken when the timer fires. -/
  | inTime {last ready : Nat} (held : limiter.last = some last)
    (early : now ≤ last + limiter.limit.interval)
    (fires : ready = Timer.wake timing.resolution (last + limiter.limit.interval))
    (onTime : timing.cancelledBefore ready = false) :
    Takes limiter timing now ⟨true, ready, { limiter with last := some ready }⟩
  | cancelled {last stop : Nat} (held : limiter.last = some last)
    (stops : timing.cancel = some stop)
    (before : stop < Timer.wake timing.resolution (last + limiter.limit.interval))
    (early : now ≤ last + limiter.limit.interval) :
    Takes limiter timing now ⟨false, max now stop, limiter⟩

theorem take_takes (limiter : RateLimiter) (timing : Timing) (now : Nat) :
    limiter.Takes timing now (limiter.take timing.resolution now timing.cancel) := by
  cases answered : limiter.check now with
  | allowed =>
    rw [take, answered]
    exact .atOnce answered
  | exceeded retryAfter =>
    rcases due_of_exceeded answered with ⟨last, held, due⟩
    have early : now ≤ last + limiter.limit.interval := due ▸ Nat.le_add_right _ _
    rw [take, answered]
    dsimp only
    rw [due]
    cases stops : timing.cancel with
    | none =>
      refine .inTime held early rfl ?_
      rw [Timing.cancelledBefore, stops, Option.any_none]
    | some stop =>
      dsimp only
      split
      · rename_i before
        exact .cancelled held stops before early
      · rename_i onTime
        refine .inTime held early rfl ?_
        rw [Timing.cancelledBefore, stops, Option.any_some, decide_eq_false_iff_not]
        exact onTime

variable {limiter : RateLimiter} {timing : Timing} {now : Nat} {waited : Waited}

/-- A permit is taken when it is available, and otherwise the limiter is left as it is. -/
theorem Takes.permit_or_none (takes : limiter.Takes timing now waited) :
    (waited.granted = true ∧ limiter.check waited.instant = .allowed ∧
      waited.limiter = { limiter with last := some waited.instant }) ∨
    (waited.granted = false ∧ waited.limiter = limiter) := by
  cases takes with
  | atOnce available => exact Or.inl ⟨rfl, available, rfl⟩
  | inTime held _ fires =>
    refine Or.inl ⟨rfl, ?_, rfl⟩
    rw [check_eq_allowed_iff]
    intro last same
    rw [held, Option.some_inj] at same
    rw [fires, ← same]
    exact Timer.le_wake _ _
  | cancelled => exact Or.inr ⟨rfl, rfl⟩

/-- If no permit was given after now, the next one is at most an interval away. -/
theorem Takes.fits (takes : limiter.Takes timing now waited) (renews : Bool)
    (prompt : ∀ last, limiter.last = some last → last ≤ now) :
    (Wait.mk now waited renews).Fits timing limiter.limit.interval := by
  have next : ∀ {last}, limiter.last = some last →
      Timer.wake timing.resolution (last + limiter.limit.interval) ≤
        Timer.wake timing.resolution (now + limiter.limit.interval) :=
    fun held => Timer.wake_mono _ (Nat.add_le_add_right (prompt _ held) _)
  have far : now ≤ Timer.wake timing.resolution (now + limiter.limit.interval) :=
    Nat.le_trans (Nat.le_add_right _ _) (Timer.le_wake _ _)
  cases takes with
  | atOnce =>
    constructor
    case passes => exact Nat.le_refl _
    case short => exact far
    case onTime => exact fun _ later => absurd later (Nat.lt_irrefl _)
    case cancelled => exact nofun
  | inTime held early fires onTime =>
    subst fires
    constructor
    case passes => exact Nat.le_trans early (Timer.le_wake _ _)
    case short => exact next held
    case onTime => exact fun _ _ => onTime
    case cancelled => exact nofun
  | cancelled held stops before =>
    constructor
    case passes => exact Nat.le_max_left _ _
    case short => exact Nat.max_le.mpr ⟨far, Nat.le_trans (Nat.le_of_lt before) (next held)⟩
    case onTime => exact nofun
    case cancelled => exact fun _ => ⟨_, stops, rfl⟩

end RateLimiter

namespace Following

variable {ι σ : Type}

/-- The wait for a permit that begins now. -/
def wait (timing : Timing) (renews : Bool) (following : Following σ) : Wait :=
  ⟨following.now, following.limiter.take timing.resolution following.now timing.cancel, renews⟩

/-- The subscription at the end of a wait. -/
def waited (timing : Timing) (renews : Bool) (following : Following σ) : Following σ :=
  { following with
    limiter := (following.wait timing renews).waited.limiter
    now := (following.wait timing renews).ended }

/-- The subscription that has taken a permit, and has subscribed again if it was for that. -/
def permitted (timing : Timing) (renews : Bool) (following : Following σ) : Following σ :=
  let ended := (following.wait timing renews).ended
  { following.waited timing renews with
    attempts := if renews then following.attempts ++ [ended] else following.attempts
    permits := following.permits ++ [ended] }

/-- No permit was given after the present instant. -/
def Prompt (following : Following σ) : Prop :=
  ∀ last, following.limiter.last = some last → last ≤ following.now

/-- The least distance between two permits. -/
def interval (following : Following σ) : Nat :=
  following.limiter.limit.interval

/-- A subscription comes from one point to another with some waits on the way.  Only what happens
to its clock, its limiter and its records is said here. -/
inductive Course (timing : Timing) : Following σ → List Wait → Following σ → Prop
  | stays (following : Following σ) : Course timing following [] following
  | goesOn {following last : Following σ} {waits : List Wait} (state : σ) {ready : Nat}
    (later : following.now ≤ ready)
    (rest : Course timing { following with state, now := ready } waits last) :
    Course timing following waits last
  | proceeds {following last : Following σ} {waits : List Wait} (renews : Bool)
    (granted : (following.wait timing renews).granted = true)
    (rest : Course timing (following.permitted timing renews) waits last) :
    Course timing following (following.wait timing renews :: waits) last
  | givesUp {following : Following σ} (renews : Bool)
    (refused : (following.wait timing renews).granted = false) :
    Course timing following [following.wait timing renews] (following.waited timing renews)

section Course

variable {timing : Timing} {following before between after : Following σ} {renews : Bool}
  {waits more : List Wait}

theorem wait_takes (timing : Timing) (renews : Bool) (following : Following σ) :
    following.limiter.Takes timing following.now (following.wait timing renews).waited :=
  following.limiter.take_takes timing following.now

/-- A permit that is taken is available, and it is the last one then. -/
theorem permit_of_granted (granted : (following.wait timing renews).granted = true) :
    following.limiter.check (following.wait timing renews).ended = .allowed ∧
      (following.permitted timing renews).limiter =
        { following.limiter with last := some (following.wait timing renews).ended } := by
  rcases (following.wait_takes timing renews).permit_or_none with permit | ⟨refused, _⟩
  · exact permit.2
  · exact absurd (granted.symm.trans refused) nofun

namespace Course

/-- A subscription goes on from where all waits were granted. -/
theorem trans (first : Course timing before waits between)
    (granted : ∀ wait ∈ waits, wait.granted = true) (second : Course timing between more after) :
    Course timing before (waits ++ more) after := by
  induction first with
  | stays => exact second
  | goesOn state later _ ih => exact .goesOn state later (ih granted second)
  | proceeds renews permit _ ih =>
    exact .proceeds renews permit (ih (fun wait member => granted wait (.tail _ member)) second)
  | givesUp renews refused =>
    exact absurd ((granted _ (.head _)).symm.trans refused) nofun

theorem permits_eq (course : Course timing before waits after) :
    after.permits = before.permits ++ Wait.permits waits := by
  induction course with
  | stays => exact (List.append_nil _).symm
  | goesOn _ _ _ ih => exact ih
  | proceeds renews granted _ ih =>
    rw [ih, Wait.permits_cons_of_granted granted]
    exact List.append_assoc _ [_] _
  | givesUp renews refused =>
    rw [Wait.permits_of_refused refused]
    exact (List.append_nil _).symm

theorem attempts_eq (course : Course timing before waits after) :
    after.attempts = before.attempts ++ Wait.renewals waits := by
  induction course with
  | stays => exact (List.append_nil _).symm
  | goesOn _ _ _ ih => exact ih
  | proceeds renews granted _ ih =>
    rw [ih]
    cases renews with
    | false =>
      rw [Wait.renewals_cons_of_not_renews rfl]
      rfl
    | true =>
      rw [Wait.renewals_cons_of_renews granted rfl]
      exact List.append_assoc _ [_] _
  | @givesUp following renews refused =>
    have none := Wait.renewals_sublist_permits [following.wait timing renews]
    rw [Wait.permits_of_refused refused, List.sublist_nil] at none
    rw [none]
    exact (List.append_nil _).symm

/-- Each permit comes an interval after the one before, also if that was given earlier. -/
theorem spaced (course : Course timing before waits after) :
    (before.limiter.last.toList ++ Wait.permits waits).Pairwise
      (fun earlier later => earlier + before.interval ≤ later) := by
  have alone : ∀ following : Following σ, following.limiter.last.toList.Pairwise
      (fun earlier later => earlier + following.interval ≤ later) := by
    intro following
    cases following.limiter.last with
    | none => exact .nil
    | some last => exact List.pairwise_singleton _ _
  induction course with
  | stays following =>
    rw [Wait.permits, List.filter_nil, List.map_nil, List.append_nil]
    exact alone following
  | goesOn _ _ _ ih => exact ih
  | @proceeds following _ _ renews granted _ ih =>
    rcases permit_of_granted granted with ⟨available, last⟩
    rw [interval, last] at ih
    rw [Wait.permits_cons_of_granted granted]
    cases held : following.limiter.last with
    | none => exact ih
    | some earlier =>
      -- the earlier permit is an interval before this one, and so before all that follow
      have gap := RateLimiter.check_eq_allowed_iff.mp available earlier held
      refine List.pairwise_cons.mpr ⟨?_, ih⟩
      intro later member
      rcases List.mem_cons.mp member with rfl | behind
      · exact gap
      · have next := (List.pairwise_cons.mp ih).1 later behind
        rw [interval]
        dsimp only at next
        omega
  | givesUp renews refused =>
    rw [Wait.permits_of_refused refused, List.append_nil]
    exact alone _

theorem fits (course : Course timing before waits after) (prompt : before.Prompt) :
    ∀ wait ∈ waits, wait.Fits timing before.interval := by
  induction course with
  | stays => exact fun _ member => absurd member List.not_mem_nil
  | goesOn state later _ ih =>
    exact ih fun last held => Nat.le_trans (prompt last held) later
  | @proceeds following _ _ renews granted _ ih =>
    intro wait member
    have last := (permit_of_granted granted).2
    rcases List.mem_cons.mp member with rfl | behind
    · exact (following.wait_takes timing renews).fits renews prompt
    · rw [Prompt, interval, last] at ih
      refine ih ?_ wait behind
      rintro _ ⟨⟩
      exact Nat.le_refl _
  | @givesUp following renews refused =>
    intro wait member
    rw [List.mem_singleton.mp member]
    exact (following.wait_takes timing renews).fits renews prompt

/-- A wait that is not granted is the last one. -/
theorem getLast?_of_refused (course : Course timing before waits after) {wait : Wait}
    (member : wait ∈ waits) (refused : wait.granted = false) : waits.getLast? = some wait := by
  induction course with
  | stays => exact absurd member List.not_mem_nil
  | goesOn _ _ _ ih => exact ih member
  | proceeds renews granted _ ih =>
    rcases List.mem_cons.mp member with rfl | behind
    · exact absurd (granted.symm.trans refused) nofun
    · rw [List.getLast?_cons, ih behind]
      rfl
  | givesUp => rw [List.mem_singleton.mp member, List.getLast?_singleton]

end Course

end Course

/-! ## The waits of a subscription -/

section Recording

variable (timing : Timing) (store : ι → σ → Bool × σ)

/-- The waits while a stream is followed. -/
def streamWaits : List (Delivery ι) → Following σ → List Wait
  | [], _ => []
  | delivery :: rest, following =>
    let ready := following.arrival timing.resolution delivery.delay
    if timing.cancelledBefore ready then []
    else
      match delivery.item with
      | .error _ => []
      | .ok item =>
        let (stored, state) := store item following.state
        let given := { following with state, now := ready }
        if stored then streamWaits rest given
        else
          given.wait timing false ::
            if (given.wait timing false).granted then
              streamWaits rest (given.permitted timing false)
            else []

/-- How an attempt turns out: one that is refused is a stream that ends at once. -/
def followAttempt : Attempt ι → Following σ → StreamEnd × Following σ
  | .refused _, following => (.broken, following)
  | .stream deliveries staysOpen, following =>
    followStream timing store staysOpen deliveries following

/-- The waits while the stream of an attempt is followed. -/
def attemptWaits : Attempt ι → Following σ → List Wait
  | .refused _, _ => []
  | .stream deliveries _, following => streamWaits timing store deliveries following

/-- The waits after a stream that failed or ended. -/
def renewalWaits : List (Attempt ι) → Following σ → List Wait
  | script, following =>
    following.wait timing true ::
      if (following.wait timing true).granted then
        match script with
        | [] => []
        | attempt :: script =>
          let renewed := following.permitted timing true
          attemptWaits timing store attempt renewed ++
            match followAttempt timing store attempt renewed with
            | (.broken, next) => renewalWaits script next
            | (.silent, _) => []
            | (.cancelled, _) => []
      else []

/-- The waits from the end of an attempt on. -/
def waitsAfter (script : List (Attempt ι)) : StreamEnd × Following σ → List Wait
  | (.broken, following) => renewalWaits timing store script following
  | (.silent, _) => []
  | (.cancelled, _) => []

/-- The waits of a subscription, in the order in which they begin. -/
def waits (following : Following σ) : List (Attempt ι) → List Wait
  | [] => []
  | .refused _ :: _ => []
  | .stream deliveries staysOpen :: script =>
    streamWaits timing store deliveries following.subscribed ++
      waitsAfter timing store script
        (followStream timing store staysOpen deliveries following.subscribed)

end Recording

variable {timing : Timing} {store : ι → σ → Bool × σ}

theorem now_le_arrival (following : Following σ) (resolution delay : Nat) :
    following.now ≤ following.arrival resolution delay := by
  unfold arrival
  split
  · exact Nat.le_refl _
  · exact Nat.le_trans (Nat.le_add_right _ _) (Timer.le_wake _ _)

/-- Something that came to an end went on with some waits, all of which were granted unless it was
cancelled. -/
structure Traces {ε : Type} (timing : Timing) (cancelled : ε) (following : Following σ)
    (waits : List Wait) (left : ε × Following σ) : Prop where
  course : Course timing following waits left.2
  granted : left.1 ≠ cancelled → ∀ wait ∈ waits, wait.granted = true

theorem Traces.of_no_waits {ε : Type} {cancelled : ε} {following : Following σ}
    {left : ε × Following σ} (course : Course timing following [] left.2) :
    Traces timing cancelled following [] left :=
  ⟨course, fun _ _ member => absurd member List.not_mem_nil⟩

theorem Traces.goesOn {ε : Type} {cancelled : ε} {following : Following σ} {waits : List Wait}
    {left : ε × Following σ} (state : σ) {ready : Nat} (later : following.now ≤ ready)
    (rest : Traces timing cancelled { following with state, now := ready } waits left) :
    Traces timing cancelled following waits left :=
  ⟨.goesOn state later rest.course, rest.granted⟩

theorem Traces.proceeds {ε : Type} {cancelled : ε} {following : Following σ} {waits : List Wait}
    {left : ε × Following σ} (renews : Bool)
    (permit : (following.wait timing renews).granted = true)
    (rest : Traces timing cancelled (following.permitted timing renews) waits left) :
    Traces timing cancelled following (following.wait timing renews :: waits) left := by
  refine ⟨.proceeds renews permit rest.course, ?_⟩
  intro uncancelled wait member
  rcases List.mem_cons.mp member with rfl | behind
  · exact permit
  · exact rest.granted uncancelled wait behind

theorem Traces.givesUp {ε : Type} {cancelled : ε} {following : Following σ} (renews : Bool)
    (permit : ¬ (following.wait timing renews).granted = true) :
    Traces timing cancelled following [following.wait timing renews]
      (cancelled, following.waited timing renews) :=
  ⟨.givesUp renews (Bool.eq_false_iff.mpr permit), fun left => absurd rfl left⟩

theorem traces_followStream (staysOpen : Bool) (deliveries : List (Delivery ι))
    (following : Following σ) :
    Traces timing .cancelled following (streamWaits timing store deliveries following)
      (followStream timing store staysOpen deliveries following) := by
  induction deliveries generalizing following with
  | nil => exact .of_no_waits (.stays following)
  | cons delivery deliveries ih =>
    have later := following.now_le_arrival timing.resolution delivery.delay
    rw [followStream, streamWaits]
    dsimp only
    rw [← arrival]
    by_cases stopped : timing.cancelledBefore (following.arrival timing.resolution delivery.delay)
    · rw [if_pos stopped, if_pos stopped]
      exact .of_no_waits (.stays following)
    rw [if_neg stopped, if_neg stopped]
    cases delivery.item with
    | error cause => exact .of_no_waits (.goesOn following.state later (.stays _))
    | ok item =>
      dsimp only
      rcases store item following.state with ⟨stored, state⟩
      let given : Following σ :=
        { following with state, now := following.arrival timing.resolution delivery.delay }
      cases stored with
      | true => exact .goesOn state later (ih given)
      | false =>
        show Traces timing StreamEnd.cancelled following
          (given.wait timing false ::
            if (given.wait timing false).granted then
              streamWaits timing store deliveries (given.permitted timing false) else [])
          (if (given.wait timing false).granted then
            followStream timing store staysOpen deliveries (given.permitted timing false)
            else (.cancelled, given.waited timing false))
        by_cases permit : (given.wait timing false).granted = true
        · rw [if_pos permit, if_pos permit]
          exact .goesOn state later (.proceeds false permit (ih _))
        · rw [if_neg permit, if_neg permit]
          exact .goesOn state later (.givesUp false permit)

/-- How a subscription goes on after an attempt. -/
def goOn (timing : Timing) (store : ι → σ → Bool × σ) (script : List (Attempt ι)) :
    StreamEnd × Following σ → FollowingEnd × Following σ
  | (.broken, following) => resubscribe timing store script following
  | (.cancelled, following) => (.cancelled, following)
  | (.silent, following) => (if timing.cancel.isSome then .cancelled else .waiting, following)

theorem resubscribe_eq (script : List (Attempt ι)) (following : Following σ) :
    resubscribe timing store script following =
      if (following.wait timing true).granted then
        match script with
        | [] =>
          (if timing.cancel.isSome then .cancelled else .waiting, following.permitted timing true)
        | attempt :: script =>
          goOn timing store script
            (followAttempt timing store attempt (following.permitted timing true))
      else (.cancelled, following.waited timing true) := by
  rw [resubscribe]
  cases script with
  | nil => rfl
  | cons attempt script => cases attempt <;> rfl

theorem traces_followAttempt (attempt : Attempt ι) (following : Following σ) :
    Traces timing .cancelled following (attemptWaits timing store attempt following)
      (followAttempt timing store attempt following) := by
  cases attempt with
  | refused cause => exact .of_no_waits (.stays following)
  | stream deliveries staysOpen => exact traces_followStream staysOpen deliveries following

/-- Only after a stream that broke there are more waits. -/
theorem traces_goOn {script : List (Attempt ι)} {following : Following σ} {waits : List Wait}
    {left : StreamEnd × Following σ} (stream : Traces timing .cancelled following waits left)
    (later : ∀ next : Following σ, Traces timing .cancelled next
      (renewalWaits timing store script next) (resubscribe timing store script next)) :
    Traces timing .cancelled following (waits ++ waitsAfter timing store script left)
      (goOn timing store script left) := by
  rcases left with ⟨ending, next⟩
  cases ending with
  | broken =>
    have granted := stream.granted nofun
    refine ⟨stream.course.trans granted (later next).course, ?_⟩
    intro uncancelled wait member
    rcases List.mem_append.mp member with earlier | behind
    · exact granted wait earlier
    · exact (later next).granted uncancelled wait behind
  | silent =>
    rw [waitsAfter, List.append_nil]
    exact ⟨stream.course, fun _ => stream.granted nofun⟩
  | cancelled =>
    rw [waitsAfter, List.append_nil]
    exact ⟨stream.course, fun left => absurd rfl left⟩

theorem traces_resubscribe (script : List (Attempt ι)) (following : Following σ) :
    Traces timing .cancelled following (renewalWaits timing store script following)
      (resubscribe timing store script following) := by
  induction script generalizing following with
  | nil =>
    rw [resubscribe_eq, renewalWaits]
    by_cases permit : (following.wait timing true).granted = true
    · rw [if_pos permit, if_pos permit]
      exact .proceeds true permit (.of_no_waits (.stays _))
    · rw [if_neg permit, if_neg permit]
      exact .givesUp true permit
  | cons attempt script ih =>
    rw [resubscribe_eq, renewalWaits]
    by_cases permit : (following.wait timing true).granted = true
    · rw [if_pos permit, if_pos permit]
      exact .proceeds true permit (traces_goOn (traces_followAttempt attempt _) ih)
    · rw [if_neg permit, if_neg permit]
      exact .givesUp true permit

theorem traces_run (script : List (Attempt ι)) (following : Following σ) :
    Traces timing .cancelled following.subscribed (following.waits timing store script)
      (following.run timing store script) := by
  cases script with
  | nil => exact .of_no_waits (.stays _)
  | cons attempt script =>
    cases attempt with
    | refused cause => exact .of_no_waits (.stays _)
    | stream deliveries staysOpen =>
      exact traces_goOn (traces_followStream staysOpen deliveries _) (traces_resubscribe script)

/-! ## The pace -/

/-- A subscription kept the pace with its waits. -/
structure Paced (timing : Timing) (waits : List Wait) (before after : Following σ)
    (result : Except IngestError Unit) : Prop where
  permits : after.permits = before.permits ++ Wait.permits waits
  /-- The first attempt is made at once, and there is one more for each permit that was for it. -/
  attempts : after.attempts = before.attempts ++ before.now :: Wait.renewals waits
  spaced : (before.limiter.last.toList ++ Wait.permits waits).Pairwise
    (fun earlier later => earlier + before.interval ≤ later)
  spacedRenewals : (Wait.renewals waits).Pairwise
    (fun earlier later => earlier + before.interval ≤ later)
  fits : ∀ wait ∈ waits, wait.Fits timing before.interval
  /-- A cancelled wait is the last thing that happens. -/
  cancelled : ∀ wait ∈ waits, wait.granted = false →
    waits.getLast? = some wait ∧ result = .ok ()

theorem paced_run (script : List (Attempt ι)) {following : Following σ}
    (prompt : following.Prompt) :
    Paced timing (following.waits timing store script) following
      (following.run timing store script).2 (following.run timing store script).1.result := by
  have traces : Traces timing FollowingEnd.cancelled _ (following.waits timing store script) _ :=
    traces_run script following
  have course := traces.course
  constructor
  case permits => exact course.permits_eq
  case attempts =>
    rw [course.attempts_eq]
    exact List.append_assoc _ [_] _
  case spaced => exact course.spaced
  case spacedRenewals =>
    exact course.spaced.sublist
      ((Wait.renewals_sublist_permits _).trans (List.sublist_append_right _ _))
  case fits => exact course.fits prompt
  case cancelled =>
    intro wait member refused
    refine ⟨course.getLast?_of_refused member refused, ?_⟩
    have ends : (following.run timing store script).1 = .cancelled :=
      Decidable.byContradiction fun uncancelled =>
        absurd ((traces.granted uncancelled wait member).symm.trans refused) nofun
    rw [ends]
    rfl

/-- Subscriptions to channel updates and to transactions keep the pace, whatever the streams
deliver, whatever can be stored and whenever they are cancelled.  Any two permits are an interval
apart, and so are any two attempts to subscribe after the first one.  A wait ends at the latest at
the first step of the timers that is not before an interval after its start.  If the cancellation
comes first it ends then, and with it the subscription, without an error and without another
attempt.  Transactions that are not taken over at the start leave no subscription at all. -/
theorem subscriptions_paced {σ : Type} (store : Handler channelCalls σ) (listening : Bool)
    (patience : Nat) (clock : Timestamp) (timing : Timing) :
    (∀ (script : List (Attempt ChannelUpdate)) (following : Following (σ × List Fact)),
      following.Prompt →
        let save := ChannelUpdate.storeIn store listening patience clock
        let run := ChannelUpdate.follow store listening patience clock timing script following
        Paced timing (following.waits timing save script) following run.2 run.1) ∧
    ∀ (listed : Except RpcError (List Transaction)) (script : List (Attempt Transaction))
      (following : Following σ), following.Prompt →
        let imported :=
          (Transaction.importAll listed).run.run (IngestCall.handler store false)
            (following.state, [])
        let begun := { following with state := imported.2.1 }
        let run := Transaction.follow store timing listed script following
        (∀ error, imported.1 = .error error → run = (.error error, begun)) ∧
        ((∀ error, imported.1 ≠ .error error) →
          Paced timing (begun.waits timing (Transaction.storeIn store) script) begun run.2
            run.1) := by
  constructor
  · intro script following prompt
    exact paced_run script prompt
  · intro listed script following prompt imported begun run
    have ran : run =
        match imported.1 with
        | .error error => (.error error, begun)
        | .ok _ =>
          ((begun.run timing (Transaction.storeIn store) script).1.result,
            (begun.run timing (Transaction.storeIn store) script).2) := by
      show Transaction.follow store timing listed script following = _
      unfold Transaction.follow
      dsimp only [begun, imported]
      rcases (Transaction.importAll listed).run.run _ _ with ⟨answer, state, facts⟩
      cases answer <;> rfl
    have prompt : begun.Prompt := prompt
    rw [ran]
    constructor
    · intro error failed
      rw [failed]
    · intro taken
      cases answer : imported.1 with
      | error error => exact absurd answer (taken error)
      | ok count => exact paced_run script prompt

/-- Streams that all end at once. -/
def shortLived {ι : Type} (count : Nat) : List (Attempt ι) :=
  List.replicate count (.stream [] false)

/-- Three permits are given in a second.  The one that is taken after a third of a second is the
last one, because the wait for the next is cancelled. -/
theorem subscriptions_paced_shortLived :
    let updates : Following (ChannelStore × List Fact) :=
      ⟨(.empty, []), ⟨⟨3, 1⟩, some 0⟩, 0, [], []⟩
    let transactions : Following ChannelStore := ⟨.empty, .fresh ⟨3, 1⟩, 0, [], []⟩
    let timing : Timing := ⟨Timer.ofMillis 1, some (Timer.ofMillis 500)⟩
    let recorded :=
      ChannelUpdate.follow ChannelStore.handler true 3 .epoch timing (shortLived 3) updates
    let stored :=
      Transaction.follow ChannelStore.handler timing (.ok []) (shortLived 3) transactions
    updates.Prompt ∧ transactions.Prompt ∧
      recorded.2.attempts = [0, Timer.ofMillis 334] ∧
      stored.2.attempts = [0, 0, Timer.ofMillis 334] ∧
      Paced timing
        (updates.waits timing (ChannelUpdate.storeIn ChannelStore.handler true 3 .epoch)
          (shortLived 3)) updates recorded.2 recorded.1 ∧
      Paced timing
        (transactions.waits timing (Transaction.storeIn ChannelStore.handler) (shortLived 3))
        transactions stored.2 stored.1 := by
  intro updates transactions timing recorded stored
  have soon : updates.Prompt := by
    rintro _ ⟨⟩
    exact Nat.le_refl 0
  have fresh : transactions.Prompt := nofun
  have paced := subscriptions_paced ChannelStore.handler true 3 .epoch timing
  exact ⟨soon, fresh, by decide +kernel, by decide +kernel, paced.1 (shortLived 3) updates soon,
    (paced.2 (.ok []) (shortLived 3) transactions fresh).2 nofun⟩

/-- Timers that fire at whole milliseconds only make a wait longer than a third of a second. -/
theorem not_ended_le_interval_shortLived :
    let updates : Following (ChannelStore × List Fact) :=
      ⟨(.empty, []), .fresh ⟨3, 1⟩, 0, [], []⟩
    let timing : Timing := ⟨Timer.ofMillis 1, none⟩
    ¬ ∀ wait ∈ updates.waits timing
        (ChannelUpdate.storeIn ChannelStore.handler true 3 .epoch) (shortLived 3),
      wait.ended ≤ wait.began + updates.interval := by
  decide +kernel

end Following

end NodeSteward
