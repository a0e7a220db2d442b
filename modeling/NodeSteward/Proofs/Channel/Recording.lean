import NodeSteward.Proofs.Channel.Settling

/-!
# A recording by itself

A job that works alone finds the store as its own calls leave it, so that a change of status is
never refused.  A report that is recorded then writes to one channel only: it inserts the channel,
or leads it on in its life where that is possible, and keeps all else.  It appends one event.
-/

namespace NodeSteward

/-- What a job comes to when nobody else works on the store, and the store that it leaves. -/
def ChannelJob.alone (job : ChannelJob) (store : ChannelStore) : ChannelOutcome × ChannelStore :=
  job.begin.run ChannelStore.handler store

theorem ChannelStore.Sound.run {α : Type} {store : ChannelStore} (sound : store.Sound)
    (program : Program channelCalls α) : (program.run handler store).2.Sound := by
  induction program generalizing store with
  | done result => exact sound
  | call request next ih => exact ih _ (sound.of_handler request)

theorem ChannelJob.sound_alone {store : ChannelStore} (sound : store.Sound) (job : ChannelJob) :
    (job.alone store).2.Sound :=
  sound.run job.begin

/-- Of two parts that end well one after the other, each ends well. -/
theorem Program.exists_of_run_exceptBind {I : Interface} {α β ε σ : Type} {handler : Handler I σ}
    {first : ExceptT ε (Program I) α} {rest : α → ExceptT ε (Program I) β} {state after : σ}
    {result : β} (ran : (first >>= rest).run.run handler state = (.ok result, after)) :
    ∃ value middle, first.run.run handler state = (.ok value, middle) ∧
      (rest value).run.run handler middle = (.ok result, after) := by
  rw [ExceptT.run_bind, Program.run_bind] at ran
  rcases ended : first.run.run handler state with ⟨answer, middle⟩
  rw [ended] at ran
  cases answer with
  | error cause => cases ran
  | ok value => exact ⟨value, middle, rfl, ran⟩

/-- Telling facts does not touch the store, and nothing comes back from it. -/
theorem IngestCall.run_storePart {α σ : Type} (store : Handler channelCalls σ) (listening : Bool)
    (program : Program ingestCalls α) (state : σ) (facts : List Fact) :
    ∃ told, program.run (IngestCall.handler store listening) (state, facts) =
      (((storePart program).run store state).1, ((storePart program).run store state).2, told) := by
  induction program generalizing state facts with
  | done result => exact ⟨facts, rfl⟩
  | call request next ih =>
    cases request with
    | store request => exact ih _ _ facts
    | publish fact => exact ih () state _

/-- A recording is the same job whether anybody listens to the facts or not. -/
theorem ChannelJob.alone_of_record {patience : Nat} {now : Timestamp} {update : ChannelUpdate}
    {imported listening : Bool} {store after : ChannelStore} {facts told : List Fact}
    {result : Except IngestError Unit}
    (recorded : (update.record patience now imported).run.run
      (IngestCall.handler ChannelStore.handler listening) (store, facts) =
        (result, after, told)) :
    (record patience now update imported).alone store = (.recorded result, after) := by
  rcases IngestCall.run_storePart ChannelStore.handler listening
    (update.record patience now imported).run store facts with ⟨_, split⟩
  rw [recorded, Prod.mk.injEq, Prod.mk.injEq] at split
  rcases split with ⟨came, left, _⟩
  rw [alone, begin, Program.run_bind, ← came, ← left]
  rfl

/-- The call is about no channel, or only about the one at another channel point. -/
def ChannelCall.Apart (point : String) : ChannelCall → Prop
  | ensureChannel wanted => wanted.point ≠ point
  | changeStatus _ other _ => other ≠ point
  | recordConfirmation _ _ _ _ | setShortChannelId _ _ _ => False
  | _ => True

theorem Channel.Rewrites.point_ne {request : ChannelCall} {channel written : Channel}
    {point : String} (rewrites : Rewrites request channel written) (apart : request.Apart point) :
    channel.point ≠ point := by
  cases rewrites with
  | confirmed => exact apart.elim
  | named => exact apart.elim
  | moved => exact apart

namespace ChannelStore

variable {store after : ChannelStore} {request : ChannelCall} {point : String}

/-- A call finds the channel at every other channel point as it was. -/
theorem channelAt?_of_apart (sound : store.Sound) (apart : request.Apart point) :
    (handler request store).2.channelAt? point = store.channelAt? point := by
  have changes := handler_changes request store
  have soundAfter := sound.of_handler request
  apply Option.ext
  intro channel
  rw [soundAfter.channelAt?_eq_some_iff, sound.channelAt?_eq_some_iff]
  constructor
  · rintro ⟨present, filed⟩
    rcases changes.source sound present with
      ⟨earlier, member, rfl | rewrites⟩ | ⟨wanted, asked, _, rfl⟩
    · exact ⟨member, filed⟩
    · exact absurd (rewrites.point.symm.trans filed) (rewrites.point_ne apart)
    · subst asked
      exact absurd filed apart
  · rintro ⟨member, filed⟩
    rcases changes.each sound channel member with ⟨held, present, _, rfl | rewrites⟩
    · exact ⟨present, filed⟩
    · exact absurd filed (rewrites.point_ne apart)

/-- An ensured channel was there before, or it is a new one. -/
theorem stored_of_ensureChannel {wanted : NewChannel} {stored : Channel}
    (answered : (handler (.ensureChannel wanted) store).1 = .ok stored) :
    store.channelAt? wanted.point = some stored ∨
      (store.channelAt? wanted.point = none ∧ ∃ id, stored = wanted.withId id) := by
  revert answered
  rw [handler, ensureChannel]
  split
  · rename_i held found
    rintro ⟨⟩
    exact Or.inl found
  · rename_i missing
    dsimp only
    split
    · split
      · intro refused
        cases refused
      · rintro ⟨⟩
        exact Or.inr ⟨missing, _, rfl⟩
    · rintro ⟨⟩
      exact Or.inr ⟨missing, _, rfl⟩

theorem events_of_not_insertEvent (other : ∀ event, request ≠ .insertEvent event) :
    (handler request store).2.events = store.events := by
  rcases (handler_changes request store).events with same | ⟨event, asked, _⟩
  · exact same
  · exact absurd asked (other event)

end ChannelStore

/-! ## One report -/

/-- The height of the closing transaction; height 0 stands for an unknown height. -/
def ClosedChannel.knownHeight (channel : ClosedChannel) : Option Int :=
  if channel.closeHeight = 0 then none else some channel.closeHeight.toNat

/-- What a close wants of its channel. -/
theorem ChannelUpdate.wanted_of_closed {now : Timestamp} {close : ClosedChannel}
    {wanted : NewChannel} (asks : (closed close).channel? now = some wanted) :
    wanted.point = close.point ∧ wanted.status = close.closeType.status ∧
      wanted.closingHash = some close.closingHash ∧ wanted.closingHeight = close.knownHeight := by
  cases asks
  refine ⟨rfl, rfl, rfl, ?_⟩
  have zero : (close.closeHeight.toNat : Int) = 0 ↔ close.closeHeight = 0 := by
    rw [Int.natCast_eq_zero, ← UInt32.toNat_inj, UInt32.toNat_zero]
  simp only [NewChannel.withClosing, ClosedChannel.knownHeight, zero]

instance (channel : Channel) (status : ChannelStatus) : Decidable (channel.SettledFor status) :=
  inferInstanceAs (Decidable (_ ∨ _))

/-- The channel after a report that wants it in a status.  A closing transaction that is known is
not replaced. -/
def Channel.hears (now : Timestamp) (wanted : NewChannel) (channel : Channel) : Channel :=
  if channel.SettledFor wanted.status then channel
  else
    { channel with
      status := wanted.status
      closingHash := if channel.closingHash.isNone then wanted.closingHash else channel.closingHash
      closingHeight := if channel.closingHash.isNone then wanted.closingHeight
        else channel.closingHeight
      updatedOn := now }

namespace Channel

variable {now : Timestamp} {wanted : NewChannel} {channel : Channel}

theorem hears_of_settledFor (settled : channel.SettledFor wanted.status) :
    channel.hears now wanted = channel :=
  if_pos settled

theorem hears_of_not_settledFor (unsettled : ¬ channel.SettledFor wanted.status) :
    channel.hears now wanted =
      { channel with
        status := wanted.status
        closingHash := if channel.closingHash.isNone then wanted.closingHash
          else channel.closingHash
        closingHeight := if channel.closingHash.isNone then wanted.closingHeight
          else channel.closingHeight
        updatedOn := now } :=
  if_neg unsettled

/-- A channel that was closed stays as it was. -/
theorem hears_of_isTerminal (closed : channel.status.isTerminal = true) :
    channel.hears now wanted = channel := by
  have settled : channel.SettledFor wanted.status := by
    apply Decidable.not_not.mp
    intro unsettled
    have early := stage_lt_of_not_settledFor unsettled
    rw [ChannelStatus.isTerminal_iff_stage.mp closed] at early
    exact Nat.lt_irrefl 3 early
  exact hears_of_settledFor settled

/-- An open channel can be closed in every way but one. -/
theorem settledFor_close_iff (opened : channel.status = .open) (type : CloseType) :
    channel.SettledFor type.status ↔ type = .fundingCanceled := by
  rw [SettledFor, opened]
  cases type <;> decide

end Channel

/-- What a recorded report has changed. -/
structure ChannelStore.Hears (before : ChannelStore) (now : Timestamp) (update : ChannelUpdate)
    (imported : Bool) (after : ChannelStore) : Prop where
  elsewhere : ∀ point, (∀ wanted, update.channel? now = some wanted → wanted.point ≠ point) →
    after.channelAt? point = before.channelAt? point
  inserted : ∀ wanted, update.channel? now = some wanted →
    before.channelAt? wanted.point = none →
      ∃ id, after.channelAt? wanted.point = some (wanted.withId id)
  advanced : ∀ wanted channel, update.channel? now = some wanted →
    before.channelAt? wanted.point = some channel →
      after.channelAt? wanted.point = some (channel.hears now wanted)
  noted : ∃ event, ChannelEvent.ofUpdate update imported now = .ok event ∧
    after.events = before.events ++ [event]

namespace ChannelJob

variable {store after : ChannelStore} {now : Timestamp} {wanted : NewChannel}
  {event : ChannelEvent} {patience : Nat} {stored : Channel}

theorem run_inserting
    (ran : (inserting event).run ChannelStore.handler store = (.recorded (.ok ()), after)) :
    after = { store with events := store.events ++ [event] } := by
  rw [inserting, Program.run, Program.run, ChannelStore.handler, ChannelStore.insertEvent] at ran
  split at ran
  · cases ran
  · cases ran
    rfl

/-- Alone, the change of status is made in the first attempt. -/
theorem run_advancing (sound : store.Sound) (found : store.channelAt? wanted.point = some stored)
    (ran : (advancing now wanted event patience stored).run ChannelStore.handler store =
      (.recorded (.ok ()), after)) :
    after.channelAt? wanted.point = some (stored.hears now wanted) ∧
      (∀ point, wanted.point ≠ point → after.channelAt? point = store.channelAt? point) ∧
      after.events = store.events ++ [event] := by
  by_cases settled : stored.SettledFor wanted.status
  · rw [advancing_of_settledFor settled] at ran
    cases run_inserting ran
    rw [Channel.hears_of_settledFor settled]
    exact ⟨found, fun _ _ => rfl, rfl⟩
  · cases patience with
    | zero =>
      rw [advancing, Channel.advance, if_neg (by simpa [Channel.SettledFor] using settled)] at ran
      cases ran
    | succ patience =>
      have filed := (ChannelStore.point_of_channelAt? found).2
      rw [advancing_of_not_settledFor filed settled, Program.run] at ran
      cases answered : (ChannelStore.handler
          (.changeStatus now wanted.point (wantedChange wanted stored)) store).1 with
      | error cause =>
        rw [answered] at ran
        cases ran
      | ok changed =>
        rw [answered] at ran
        cases changed with
        | false =>
          -- the status is the one that was read
          rcases ChannelStore.changeStatus_of_refused answered with ⟨_, other⟩
          exact absurd rfl (other stored found)
        | true =>
          rcases ChannelStore.written_of_changeStatus sound answered with
            ⟨channel, moved, again, applies, there⟩
          cases found.symm.trans again
          cases run_inserting ran
          have elsewhere : ∀ point, wanted.point ≠ point →
              (ChannelStore.handler (.changeStatus now wanted.point (wantedChange wanted stored))
                store).2.channelAt? point = store.channelAt? point :=
            fun point other => ChannelStore.channelAt?_of_apart sound other
          have unnoted : (ChannelStore.handler
              (.changeStatus now wanted.point (wantedChange wanted stored)) store).2.events =
                store.events :=
            ChannelStore.events_of_not_insertEvent (by rintro _ ⟨⟩)
          refine ⟨there.trans (congrArg some ?_), elsewhere, congrArg (· ++ [event]) unnoted⟩
          rw [(Channel.applyStatusChange?_eq_some_iff.mp applies).2,
            Channel.hears_of_not_settledFor settled]
          rfl

variable {update : ChannelUpdate} {imported : Bool}

/-- A report that opens or closes a channel ensures that there is one, and then leads it on. -/
theorem hears_of_asking (sound : store.Sound)
    (shown : ChannelEvent.ofUpdate update imported now = .ok event)
    (asks : update.channel? now = some wanted)
    (answered : (ChannelStore.handler (.ensureChannel wanted) store).1 = .ok stored)
    (ran : (advancing now wanted event patience stored).run ChannelStore.handler
      (ChannelStore.handler (.ensureChannel wanted) store).2 = (.recorded (.ok ()), after)) :
    store.Hears now update imported after := by
  have found := ChannelStore.channelAt?_of_ensureChannel sound answered
  rcases run_advancing (sound.of_handler (.ensureChannel wanted)) found ran with
    ⟨there, elsewhere, events⟩
  constructor
  · intro point other
    have apart := other wanted asks
    rw [elsewhere point apart]
    exact ChannelStore.channelAt?_of_apart sound apart
  · intro _ asked missing
    cases asks.symm.trans asked
    rcases ChannelStore.stored_of_ensureChannel answered with held | ⟨_, id, rfl⟩
    · cases missing.symm.trans held
    · exact ⟨id, there.trans (congrArg some (Channel.hears_of_settledFor (Or.inl rfl)))⟩
  · intro _ channel asked held
    cases asks.symm.trans asked
    rcases ChannelStore.stored_of_ensureChannel answered with again | ⟨missing, _⟩
    · cases held.symm.trans again
      exact there
    · cases missing.symm.trans held
  · have unnoted : (ChannelStore.handler (.ensureChannel wanted) store).2.events = store.events :=
      ChannelStore.events_of_not_insertEvent (by rintro _ ⟨⟩)
    rw [unnoted] at events
    exact ⟨event, shown, events⟩

/-- A report that was recorded alone has been heard. -/
theorem hears_of_alone (sound : store.Sound)
    (recorded : (record patience now update imported).alone store = (.recorded (.ok ()), after)) :
    store.Hears now update imported after := by
  rw [alone] at recorded
  cases shown : ChannelEvent.ofUpdate update imported now with
  | error cause =>
    rw [begin_record_of_unshown shown] at recorded
    cases recorded
  | ok event =>
    cases asks : update.channel? now with
    | none =>
      rw [begin_record_of_none shown asks] at recorded
      cases run_inserting recorded
      have unasked : ∀ wanted, update.channel? now ≠ some wanted := by simp [asks]
      exact ⟨fun _ _ => rfl, fun wanted asked => absurd asked (unasked wanted),
        fun wanted _ asked => absurd asked (unasked wanted), event, shown, rfl⟩
    | some wanted =>
      rw [begin_record_of_some shown asks, Program.run] at recorded
      cases answered : (ChannelStore.handler (.ensureChannel wanted) store).1 with
      | error cause =>
        rw [answered] at recorded
        cases recorded
      | ok stored =>
        rw [answered] at recorded
        exact hears_of_asking sound shown asks answered recorded

end ChannelJob

end NodeSteward
