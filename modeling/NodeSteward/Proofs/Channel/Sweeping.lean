import NodeSteward.Channel.Subscription
import NodeSteward.Proofs.Channel.Change
import NodeSteward.Proofs.Channel.Rounds

/-!
# Sweeps in any surroundings

Nothing is known of the verification service, of the failures of the store or of how long calls
take.  A sweep that is not cancelled asks all that the list of channels dictates at its start, and a
cancelled one asks the first part of it.  A pause takes time, so that it cannot end as usual after
the cancellation, and at most one question is asked from then on.
-/

namespace NodeSteward

variable {ν : Type}

/-- What a sweep works in, beside the store.  All of it can depend on what has been answered and
refused before. -/
structure Surroundings (ν : Type) where
  details : String → ν → Except VerificationError TransactionDetails × ν
  shortChannelId : String → UInt32 → ν → Except VerificationError (Option ShortChannelId) × ν
  /-- The failure with which a call does not reach the store. -/
  failure : ChannelCall → ν → Option StoreError × ν
  /-- How long it takes until a call is answered. -/
  duration : SweepCall → ν → Nat
  /-- Whether a pause is over that ends at the very instant of the cancellation. -/
  isOver : ν → Bool
  timing : Timing
  /-- The length of a pause. -/
  delay : Nat

/-- The store, the state of all else, and the instant on the clock of the timers. -/
structure Situation (ν : Type) where
  store : ChannelStore
  rest : ν
  now : Nat

namespace Surroundings

variable (surroundings : Surroundings ν)

/-- Answers a call to the store, unless it fails. -/
def reach (request : ChannelCall) (situation : Situation ν) :
    Except StoreError request.Value × Situation ν :=
  match surroundings.failure request situation.rest with
  | (some error, rest) => (.error error, { situation with rest })
  | (none, rest) =>
    ((ChannelStore.handler request situation.store).1,
      { situation with store := (ChannelStore.handler request situation.store).2, rest })

/-- Waits for the length of a pause, unless the cancellation comes first. -/
def pause (situation : Situation ν) : Bool × Situation ν :=
  let ready := Timer.expiry surroundings.timing.resolution situation.now surroundings.delay
  match surroundings.timing.cancel with
  | none => (true, { situation with now := ready })
  | some stop =>
    if stop < ready ∨ (stop = ready ∧ !surroundings.isOver situation.rest) then
      (false, { situation with now := max situation.now stop })
    else (true, { situation with now := ready })

/-- Answers what a sweep asks. -/
def handler : Handler sweepCalls (Situation ν) := fun request situation =>
  let later := situation.now + surroundings.duration request situation.rest
  match request with
  | .store request => surroundings.reach request { situation with now := later }
  | .transactionDetails hash =>
    ((surroundings.details hash situation.rest).1,
      { situation with rest := (surroundings.details hash situation.rest).2, now := later })
  | .shortChannelId hash output =>
    ((surroundings.shortChannelId hash output situation.rest).1,
      { situation with
        rest := (surroundings.shortChannelId hash output situation.rest).2
        now := later })
  | .pause => surroundings.pause situation

variable {surroundings} {situation : Situation ν}

theorem handler_pause (situation : Situation ν) :
    surroundings.handler .pause situation = surroundings.pause situation :=
  rfl

/-- A call that fails on its way changes nothing. -/
theorem handler_store_of_failure {request : ChannelCall} {error : StoreError}
    (failed : (surroundings.failure request situation.rest).1 = some error) :
    (surroundings.handler (.store request) situation).1 = .error error ∧
      (surroundings.handler (.store request) situation).2.store = situation.store := by
  rw [handler]
  dsimp only
  rw [reach]
  dsimp only
  split
  · rename_i error rest given
    rw [given] at failed
    cases failed
    exact ⟨rfl, rfl⟩
  · rename_i rest given
    rw [given] at failed
    cases failed

/-- The store answers a call that reaches it. -/
theorem handler_store_of_none {request : ChannelCall}
    (reaches : (surroundings.failure request situation.rest).1 = none) :
    (surroundings.handler (.store request) situation).1 =
        (ChannelStore.handler request situation.store).1 ∧
      (surroundings.handler (.store request) situation).2.store =
        (ChannelStore.handler request situation.store).2 := by
  rw [handler]
  dsimp only
  rw [reach]
  dsimp only
  split
  · rename_i error rest given
    rw [given] at reaches
    cases reaches
  · exact ⟨rfl, rfl⟩

/-- The clock never goes back. -/
theorem now_le_handler (request : SweepCall) (situation : Situation ν) :
    situation.now ≤ (surroundings.handler request situation).2.now := by
  cases request with
  | store request =>
    rw [handler]
    dsimp only
    rw [reach]
    split
    · exact Nat.le_add_right _ _
    · exact Nat.le_add_right _ _
  | transactionDetails hash => exact Nat.le_add_right _ _
  | shortChannelId hash output => exact Nat.le_add_right _ _
  | pause =>
    rw [handler_pause, pause]
    split
    · exact Timer.now_le_expiry _ _ _
    · split
      · exact Nat.le_max_left _ _
      · exact Timer.now_le_expiry _ _ _

/-- A pause is cancelled at the instant of the cancellation or later. -/
theorem exists_stop_of_cancelled (cancelled : (surroundings.handler .pause situation).1 = false) :
    ∃ stop, surroundings.timing.cancel = some stop ∧
      stop ≤ (surroundings.handler .pause situation).2.now := by
  revert cancelled
  rw [handler_pause, pause]
  split
  · nofun
  · rename_i stop arranged
    split
    · exact fun _ => ⟨stop, arranged, Nat.le_max_right _ _⟩
    · nofun

/-- A pause that begins after the cancellation is cancelled, if pauses take time. -/
theorem cancelled_of_le {stop : Nat} (arranged : surroundings.timing.cancel = some stop)
    (positive : 0 < surroundings.delay) (late : stop ≤ situation.now) :
    (surroundings.handler .pause situation).1 = false := by
  have waits := Timer.now_lt_expiry surroundings.timing.resolution situation.now positive
  rw [handler_pause, pause, arranged]
  dsimp only
  rw [if_pos (Or.inl (Nat.lt_of_le_of_lt late waits))]

/-- The clock only goes on from an exchange to the end of the run. -/
theorem now_le_run {α : Type} {program : Program sweepCalls α}
    {passage : Passage sweepCalls (Situation ν)}
    (made : passage ∈ program.passages surroundings.handler situation) :
    passage.state.now ≤ (program.run surroundings.handler situation).2.now := by
  rcases List.append_of_mem made with ⟨earlier, later, parted⟩
  rcases Program.exists_rest_of_passages parted with ⟨rest, _, ran⟩
  rw [← ran]
  refine Program.holds_of_passages (fun last : Situation ν => passage.state.now ≤ last.now) ?_
    (Nat.le_refl _)
  intro other further reached
  rw [Program.eq_through_of_mem_passages further] at reached ⊢
  exact Nat.le_trans reached (now_le_handler _ _)

/-! ## Rounds in time -/

variable {clock : Timestamp} {channel : Channel} {inquiry : Inquiry}

/-- At most one round begins after the cancellation, if pauses take time. -/
theorem countP_late_le_one {stop : Nat} (arranged : surroundings.timing.cancel = some stop)
    (positive : 0 < surroundings.delay) (inquiries : List (Channel × Inquiry))
    (situation : Situation ν) :
    (Sweep.rounds surroundings.handler clock inquiries situation).countP
      (fun round => stop ≤ round.question.before.now) ≤ 1 := by
  induction inquiries generalizing situation with
  | nil => exact Nat.zero_le 1
  | cons first inquiries ih =>
    rcases first with ⟨channel, inquiry⟩
    rw [Sweep.rounds_cons]
    by_cases late : stop ≤ situation.now
    · -- the pause of this round begins after the cancellation too
      have behind := inquiry.holds_at_pause surroundings.handler clock
        (fun later : Situation ν => stop ≤ later.now)
        (fun request other reached => Nat.le_trans reached (now_le_handler request other)) channel
        late
      rw [Sweep.roundsOn, cancelled_of_le arranged positive behind]
      exact List.countP_le_length
    · rw [List.countP_cons_of_neg (by simpa [Inquiry.round, Passage.through] using late)]
      rw [Sweep.roundsOn]
      split
      · exact ih _
      · exact Nat.zero_le 1

end Surroundings

/-- What a sweep should ask, by the channels that are stored at its start: for each channel in turn
the inquiries that it needs. -/
def ChannelStore.inquiries (store : ChannelStore) : List (Channel × Inquiry) :=
  store.channels.rows.flatMap Channel.inquiries

theorem ChannelStore.hash_ne_empty_of_mem {store : ChannelStore} {inquiry : Channel × Inquiry}
    (listed : inquiry ∈ store.inquiries) : (inquiry.2.lookup inquiry.1).hash ≠ "" := by
  rcases List.mem_flatMap.mp listed with ⟨channel, _, needs⟩
  rcases List.mem_map.mp needs with ⟨asked, needed, rfl⟩
  exact Inquiry.hash_ne_empty (List.mem_filter.mp needed).2

/-- A sweep consists of rounds that are made and counted as they should be. -/
structure Surroundings.Conducts (surroundings : Surroundings ν) (clock : Timestamp)
    (node : NodeSettings) (start : Situation ν) (rounds : List (Round (Situation ν))) : Prop where
  /-- The sweep reads the list of the channels, and does nothing else but the rounds. -/
  course : (Sweep.run clock node).passages surroundings.handler start =
    .through surroundings.handler (.store .listChannels) start :: rounds.flatMap Round.passages
  /-- The rounds make the first of the inquiries, in their order. -/
  inOrder : ∃ taken, taken <+: start.store.inquiries ∧
    List.Forall₂ (Round.Serves clock) taken rounds
  /-- They make all of the inquiries if the sweep ends before it is cancelled. -/
  complete : (∀ stop, surroundings.timing.cancel = some stop →
      ((Sweep.run clock node).run surroundings.handler start).2.now < stop) →
    List.Forall₂ (Round.Serves clock) start.store.inquiries rounds
  /-- At most one question is asked after the cancellation. -/
  late : ∀ stop, surroundings.timing.cancel = some stop → 0 < surroundings.delay →
    rounds.countP (fun round => stop ≤ round.question.before.now) ≤ 1
  summary : ((Sweep.run clock node).run surroundings.handler start).1 =
    .ok
      { channels := start.store.channels.rows.length
        lookups := rounds.length
        updated := rounds.countP Round.isStored
        failures := rounds.countP Round.hasFailed }

namespace Surroundings

theorem exists_conducts {surroundings : Surroundings ν} {node : NodeSettings}
    {start : Situation ν} (clock : Timestamp) (mainnet : node.isBitcoinMainnet = true)
    (listed : (surroundings.failure .listChannels start.rest).1 = none) :
    ∃ rounds, surroundings.Conducts clock node start rounds := by
  have read : (surroundings.handler (.store .listChannels) start).1 =
      .ok start.store.channels.rows := (handler_store_of_none listed).1
  rcases Sweep.run_course clock mainnet read with ⟨course, summary⟩
  refine ⟨_, course, Sweep.rounds_serve _ _, fun ends => ?_,
    fun stop arranged positive => countP_late_le_one arranged positive _ _, ?_⟩
  · apply Sweep.rounds_serve_all
    intro round made
    have paused := Sweep.pause_of_mem_rounds made
    cases goesOn : (surroundings.handler .pause round.pause.before).1 with
    | true => rfl
    | false =>
      -- the clock stands at the cancellation after this pause, and at the end of the sweep too
      rcases exists_stop_of_cancelled goesOn with ⟨stop, arranged, reached⟩
      have made : round.pause ∈ (Sweep.run clock node).passages surroundings.handler start := by
        rw [course]
        refine List.mem_cons_of_mem _ (List.mem_flatMap.mpr ⟨round, made, ?_⟩)
        exact round.pause_mem_passages
      have further := now_le_run made
      rw [paused] at further
      have inTime := ends stop arranged
      exact absurd (Nat.le_trans reached further) (Nat.not_le_of_lt inTime)
  · rw [summary]
    simp [SweepSummary.after, SweepSummary.zero]

/-- Whatever the service answers, whichever writes fail and whenever it is cancelled: a sweep asks
what the channels of the store need at its start, in the order of their identifiers and never about
an empty hash.  It counts its questions, the answers that were stored and those questions that ended
in an error. -/
theorem sweep_asks_as_listed (surroundings : Surroundings ν) (clock : Timestamp)
    (node : NodeSettings) (start : Situation ν) (mainnet : node.isBitcoinMainnet = true)
    (listed : (surroundings.failure .listChannels start.rest).1 = none) :
    (∃ rounds, surroundings.Conducts clock node start rounds) ∧
      (∀ inquiry ∈ start.store.inquiries, (inquiry.2.lookup inquiry.1).hash ≠ "") ∧
      start.store.channels.rows.Pairwise fun earlier later => earlier.id.raw < later.id.raw :=
  ⟨exists_conducts clock mainnet listed, fun _ => ChannelStore.hash_ne_empty_of_mem,
    start.store.channels.ascending⟩

/-- A service that fails for one transaction, and a store that refuses a confirmation. -/
def flawed : Surroundings Unit where
  details hash rest :=
    (if hash = "cd" then .error (.request "no answer") else .ok ⟨hash, 700, none, none⟩, rest)
  shortChannelId _ _ rest := (.ok none, rest)
  failure request rest :=
    match request with
    | .recordConfirmation _ ⟨2⟩ _ _ => (some (.injected "record_confirmation"), rest)
    | _ => (none, rest)
  duration _ _ := 1
  isOver _ := true
  timing := ⟨1000000, none⟩
  delay := 500000000

/-- Of a closed and of an open channel five things are asked, although the first question and a
write in between fail. -/
theorem sweep_asks_as_listed_flawed :
    let store := ChannelDeed.applyAll .empty
      [.call (.ensureChannel
        ((NewChannel.ofPoint "ab:0" .cooperativeClosed .epoch).withClosing "cd" 0)),
        .call (.ensureChannel (.ofPoint "ef:1" .open .epoch))]
    ∃ rounds, flawed.Conducts .epoch .standard ⟨store, (), 0⟩ rounds ∧ rounds.length = 5 ∧
      rounds.countP Round.isStored = 1 ∧ rounds.countP Round.hasFailed = 2 ∧
      List.Forall₂ (Round.Serves .epoch) store.inquiries rounds := by
  intro store
  rcases (sweep_asks_as_listed flawed .epoch .standard ⟨store, (), 0⟩ rfl rfl).1 with
    ⟨rounds, conducts⟩
  have ran : ((Sweep.run .epoch .standard).run flawed.handler ⟨store, (), 0⟩).1 =
      .ok ⟨2, 5, 1, 2⟩ := by decide +kernel
  have counts := Except.ok.inj (conducts.summary.symm.trans ran)
  rcases SweepSummary.mk.inj counts with ⟨_, lookups, updated, failures⟩
  exact ⟨rounds, conducts, lookups, updated, failures, conducts.complete nofun⟩

end Surroundings

end NodeSteward
