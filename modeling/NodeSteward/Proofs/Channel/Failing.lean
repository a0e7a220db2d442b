import NodeSteward.Proofs.Channel.Timeless

/-!
# A recording that failed can be made again

A call that fails does not reach the store, and it ends what was being done: the failure is passed
on, and no further call is made.  So work on a store that fails now and then goes the way it would
have gone on a store that works, to its end or up to some call, and leaves what was there before
that call.

The event of a recording is its last write.  A recording that was cut off has therefore left no
event, and the same update, recorded once the store works, brings the channel and the event to what
they would have been.
-/

namespace NodeSteward

namespace ChannelStore

variable {store : ChannelStore}

/-- How the store answers where failures are arranged. -/
def faultyHandler : Handler channelCalls (Faulty ChannelStore) :=
  Faulty.handler (I := channelCalls) ChannelCall.operation (fun _ error => .error error) handler

theorem channelAt?_working (store : ChannelStore) (point : String) :
    store.working.channelAt? point = store.channelAt? point :=
  rfl

theorem contains_working (store : ChannelStore) (id : ChannelId) :
    store.working.channels.contains id = store.channels.contains id :=
  rfl

theorem shortIdTaken_working (store : ChannelStore) (id : Option ShortChannelId)
    (except : ChannelId) : store.working.shortIdTaken id except = store.shortIdTaken id except :=
  rfl

theorem ensureChannel_working (store : ChannelStore) (wanted : NewChannel) :
    store.working.ensureChannel wanted =
      ((store.ensureChannel wanted).1, (store.ensureChannel wanted).2.working) := by
  cases found : store.channelAt? wanted.point with
  | some held =>
    rw [ensureChannel_of_found found]
    exact ensureChannel_of_found found
  | none =>
    have missing := (channelAt?_working store wanted.point).trans found
    cases taken : store.shortIdTaken wanted.shortChannelId ⟨(store.issued : Int) + 1⟩ with
    | false =>
      rw [ensureChannel_of_free found taken]
      exact ensureChannel_of_free missing taken
    | true =>
      cases named : wanted.shortChannelId with
      | none =>
        rw [named] at taken
        cases taken
      | some id =>
        rw [named] at taken
        rw [ensureChannel_of_taken found named taken]
        exact ensureChannel_of_taken missing named taken

/-- A refused write is told as such, and otherwise the store answers as if it worked. -/
theorem handler_refuses_or_works (request : ChannelCall) (store : ChannelStore) :
    (∃ details, (handler request store).1 = .error (.storageFailure request.operation details) ∧
        (handler request store).2 = store) ∨
      handler request store.working =
        ((handler request store).1, (handler request store).2.working) := by
  have works := works_working store
  have on : ¬ store.working.refusesUpdates = true := Bool.false_ne_true
  cases request with
  | ensureChannel wanted => exact Or.inr (ensureChannel_working store wanted)
  | recordConfirmation now id transaction confirmation =>
    rw [handler, handler, recordConfirmation, recordConfirmation, if_neg on, contains_working]
    by_cases refuses : store.refusesUpdates = true
    · rw [if_pos refuses]
      exact Or.inl ⟨_, rfl, rfl⟩
    · rw [if_neg refuses]
      refine Or.inr ?_
      cases store.channels.contains id <;> rfl
  | setShortChannelId now id shortId =>
    rw [handler, handler, setShortChannelId, setShortChannelId, if_neg on, contains_working,
      shortIdTaken_working]
    by_cases refuses : store.refusesUpdates = true
    · rw [if_pos refuses]
      exact Or.inl ⟨_, rfl, rfl⟩
    · rw [if_neg refuses]
      refine Or.inr ?_
      cases store.channels.contains id with
      | false => rfl
      | true => cases store.shortIdTaken (some shortId) id <;> rfl
  | changeStatus now point change =>
    rw [handler, handler, changeStatus, changeStatus, if_neg on, channelAt?_working]
    by_cases refuses : store.refusesUpdates = true
    · rw [if_pos refuses]
      exact Or.inl ⟨_, rfl, rfl⟩
    · rw [if_neg refuses]
      refine Or.inr ?_
      cases store.channelAt? point with
      | none => rfl
      | some channel =>
        dsimp only
        cases channel.applyStatusChange? change <;> rfl
  | insertEvent event =>
    rw [handler, handler, insertEvent_of_works works, insertEvent]
    by_cases refuses : store.refusesEvents = true
    · rw [if_pos refuses]
      exact Or.inl ⟨_, rfl, rfl⟩
    · rw [if_neg refuses]
      exact Or.inr rfl
  | _ => exact Or.inr rfl

/-- A call fails and leaves the store, or it is answered as by a store that works. -/
theorem faultyHandler_fails_or_works (request : ChannelCall) (state : Faulty ChannelStore) :
    (∃ details,
        (faultyHandler request state).1 =
          .error (.storageFailure request.operation details) ∧
        (faultyHandler request state).2.store.working = state.store.working) ∨
      (faultyHandler request state).1 = (handler request state.store.working).1 ∧
        (faultyHandler request state).2.store.working =
          (handler request state.store.working).2 := by
  rw [faultyHandler, Faulty.handler]
  dsimp only
  split
  · exact Or.inl ⟨_, rfl, rfl⟩
  · rcases handler_refuses_or_works request state.store with ⟨details, told, kept⟩ | same
    · exact Or.inl ⟨details, told, congrArg working kept⟩
    · rw [same]
      exact Or.inr ⟨rfl, rfl⟩

end ChannelStore

/-! ## Programs that end with the first failure -/

/-- The first failure of the store ends the program, and is passed on. -/
inductive FailsFast {α : Type} : Program channelCalls (Except IngestError α) → Prop
  | done (result : Except IngestError α) : FailsFast (.done result)
  | call {request : ChannelCall}
    {next : Except StoreError request.Value → Program channelCalls (Except IngestError α)}
    (fails : ∀ cause, next (.error cause) = .done (.error (.store cause)))
    (goesOn : ∀ value, FailsFast (next (.ok value))) :
    FailsFast (.call (I := channelCalls) request next)

/-- A run was cut off at an exchange of its course: it ends with the failure of that call, and
leaves what was there before it. -/
structure CutAt {α : Type} (passage : Passage channelCalls ChannelStore)
    (result : Except IngestError α) (after : Faulty ChannelStore) : Prop where
  result : ∃ details, result = .error (.store (.storageFailure passage.request.operation details))
  after : after.store.working = passage.before

namespace FailsFast

open ChannelStore (faultyHandler faultyHandler_fails_or_works)

variable {α β : Type}

/-- Where calls may fail, a run goes the way it would go if the store worked, up to its end or to a
call that fails. -/
theorem completes_or_cut {program : Program channelCalls (Except IngestError α)}
    (fast : FailsFast program) (state : Faulty ChannelStore) :
    (program.run faultyHandler state).1 =
          (program.run ChannelStore.handler state.store.working).1 ∧
        (program.run faultyHandler state).2.store.working =
          (program.run ChannelStore.handler state.store.working).2 ∨
      ∃ passage ∈ program.passages ChannelStore.handler state.store.working,
        CutAt passage (program.run faultyHandler state).1 (program.run faultyHandler state).2 := by
  induction fast generalizing state with
  | done result => exact Or.inl ⟨rfl, rfl⟩
  | @call request next fails goesOn ih =>
    rw [Program.run, Program.run, Program.passages]
    rcases faultyHandler_fails_or_works request state with ⟨details, told, kept⟩ | ⟨told, kept⟩
    · rw [told, fails]
      exact Or.inr ⟨_, List.mem_cons_self, ⟨details, rfl⟩, kept⟩
    · rw [told, ← kept]
      cases answered : (ChannelStore.handler request state.store.working).1 with
      | error cause =>
        rw [fails]
        exact Or.inl ⟨rfl, rfl⟩
      | ok value =>
        rcases ih value (faultyHandler request state).2 with same | ⟨passage, made, cut⟩
        · exact Or.inl same
        · exact Or.inr ⟨passage, List.mem_cons_of_mem _ made, cut⟩

theorem bind {program : Program channelCalls (Except IngestError α)}
    {next : Except IngestError α → Program channelCalls (Except IngestError β)}
    (fast : FailsFast program) (passes : ∀ error, next (.error error) = .done (.error error))
    (rest : ∀ value, FailsFast (next (.ok value))) : FailsFast (program >>= next) := by
  induction fast with
  | done result =>
    cases result with
    | error error =>
      show FailsFast (next (.error error))
      rw [passes]
      exact .done _
    | ok value => exact rest value
  | call fails _ ih =>
    refine .call (fun cause => ?_) ih
    rw [fails]
    exact passes _

/-- The calls of an ingesting program, of which the first failure ends it. -/
theorem storeBind {program : IngestProgram α} {next : α → IngestProgram β}
    (fast : FailsFast (IngestCall.storePart program.run))
    (rest : ∀ value, FailsFast (IngestCall.storePart (next value).run)) :
    FailsFast (IngestCall.storePart (program >>= next).run) := by
  rw [ExceptT.run_bind, IngestCall.storePart_bind]
  exact fast.bind (fun _ => rfl) rest

theorem ask (request : ChannelCall) :
    FailsFast (IngestCall.storePart (IngestProgram.ask request).run) :=
  .call (fun _ => rfl) fun _ => .done _

theorem publish (facts : List Fact) :
    FailsFast (IngestCall.storePart (IngestProgram.publish facts).run) := by
  induction facts with
  | nil => exact .done _
  | cons fact facts ih => exact ih

theorem advance (now : Timestamp) (wanted : NewChannel) (patience : Nat) (stored : Channel) :
    FailsFast (IngestCall.storePart (Channel.advance now wanted patience stored).run) := by
  induction patience generalizing stored with
  | zero =>
    rw [Channel.advance]
    split <;> exact .done _
  | succ patience ih =>
    rw [Channel.advance]
    split
    · exact .done _
    refine (ask _).storeBind fun changed => ?_
    cases changed with
    | true => exact .done _
    | false =>
      refine (ask _).storeBind fun found => ?_
      cases found with
      | none => exact .done _
      | some channel => exact ih channel

theorem record (patience : Nat) (now : Timestamp) (update : ChannelUpdate) (imported : Bool) :
    FailsFast (IngestCall.storePart (update.record patience now imported).run) := by
  rw [ChannelUpdate.record]
  cases ChannelEvent.ofUpdate update imported now with
  | error cause => exact .done _
  | ok event =>
    refine (publish _).storeBind fun _ => ?_
    cases update.channel? now with
    | none => exact ask _
    | some wanted =>
      have ensures := (ask (.ensureChannel wanted)).storeBind (advance now wanted patience)
      exact ensures.storeBind fun _ => ask _

end FailsFast

/-! ## Recordings that fail -/

theorem ChannelEvent.ofUpdate_time {update : ChannelUpdate} {imported : Bool} {now : Timestamp}
    {event : ChannelEvent} (shown : ofUpdate update imported now = .ok event) (later : Timestamp) :
    ofUpdate update imported later = .ok { event with time := later } := by
  rw [ofUpdate] at shown ⊢
  cases shows : update.point with
  | error cause =>
    rw [shows] at shown
    cases shown
  | ok point =>
    rw [shows] at shown
    cases shown
    rfl

namespace ChannelStore

variable {store first second : ChannelStore} {now earlier later : Timestamp}
  {update : ChannelUpdate} {imported : Bool}

theorem events_hear_of_ok (recorded : (store.hear now update imported).1 = .ok ()) :
    ∃ event, ChannelEvent.ofUpdate update imported now = .ok event ∧
      (store.hear now update imported).2.events = store.events ++ [event] := by
  rcases store.hear_cases now update imported with
    ⟨cause, _, came⟩ | ⟨cause, _, came, _⟩ | ⟨event, shown, _, events⟩
  · rw [came] at recorded
    cases recorded
  · cases recorded.symm.trans came
  · exact ⟨event, shown, events⟩

theorem events_hear_of_error {error : IngestError}
    (failed : (store.hear now update imported).1 = .error error) :
    (store.hear now update imported).2.events = store.events := by
  rcases store.hear_cases now update imported with
    ⟨cause, _, came⟩ | ⟨_, _, _, events⟩ | ⟨_, _, came, _⟩
  · rw [came]
  · exact events
  · cases failed.symm.trans came

/-- A store that works reports no failure of the storage. -/
theorem hear_ne_storageFailure {operation details : String} :
    (store.hear now update imported).1 ≠ .error (.store (.storageFailure operation details)) := by
  intro failed
  rcases store.hear_cases now update imported with
    ⟨cause, _, came⟩ | ⟨cause, violation, came, _⟩ | ⟨_, _, came, _⟩
  · rw [came] at failed
    cases failed
  · cases failed.symm.trans came
    cases violation
  · cases failed.symm.trans came

theorem unshown_of_hear {cause : OutpointError}
    (refused : (store.hear now update imported).1 = .error (.outpoint cause)) :
    ChannelEvent.ofUpdate update imported now = .error cause := by
  rcases store.hear_cases now update imported with
    ⟨other, unshown, came⟩ | ⟨_, _, came, _⟩ | ⟨_, _, came, _⟩
  · rw [came] at refused
    cases refused
    exact unshown
  · cases refused.symm.trans came
  · cases refused.symm.trans came

/-- Two stores have come from one by a recording each: they hold the same channels, the instants
apart, and each the same new event with its own instant. -/
structure SameRecording (store first : ChannelStore) (earlier : Timestamp) (second : ChannelStore)
    (later : Timestamp) : Prop where
  channels : first.channels.rows.map Channel.timeless = second.channels.rows.map Channel.timeless
  events : ∃ event : ChannelEvent, first.events = store.events ++ [{ event with time := earlier }] ∧
    second.events = store.events ++ [{ event with time := later }]

/-- A recording that was cut off once the channel was ensured can be made again, from what it has
left, as well as from the beginning. -/
theorem Retains.repeats {passage : Passage channelCalls ChannelStore}
    (retains : store.Retains now update imported passage)
    (ensured : passage.request.operation ≠ "ensure_channel") (earlier later : Timestamp) :
    (passage.before.hear earlier update imported).1 = .ok () ∧
      (store.hear later update imported).1 = .ok () ∧
      store.SameRecording (passage.before.hear earlier update imported).2 earlier
        (store.hear later update imported).2 later := by
  have again := hear_alike (rfl : passage.before.timeless = _) earlier now update imported
  have anew := hear_alike (rfl : store.timeless = _) now later update imported
  rw [retains.again] at again
  have recorded := again.1.trans (retains.recorded ensured)
  have recordedLater := anew.1.symm.trans (retains.recorded ensured)
  rcases events_hear_of_ok recorded with ⟨event, shown, events⟩
  rcases events_hear_of_ok recordedLater with ⟨other, shownLater, eventsLater⟩
  refine ⟨recorded, recordedLater, ?_, event, ?_, ?_⟩
  · exact congrArg (fun store => store.channels.rows) (again.2.trans anew.2)
  · have own := Except.ok.inj (shown.symm.trans (ChannelEvent.ofUpdate_time shown earlier))
    rw [← own, events, retains.events]
  · rw [eventsLater,
      Except.ok.inj (shownLater.symm.trans (ChannelEvent.ofUpdate_time shown later))]

end ChannelStore

namespace ChannelUpdate

open ChannelStore (faultyHandler)

variable {store : ChannelStore} {patience : Nat} {now : Timestamp} {update : ChannelUpdate}
  {imported : Bool}

/-- On a store that works, a recording comes to the same whoever listens. -/
theorem exists_told (works : store.Works) (sound : store.Sound) (patient : 0 < patience)
    (now : Timestamp) (update : ChannelUpdate) (imported listening : Bool) (facts : List Fact) :
    ∃ told, (update.record patience now imported).run.run
        (IngestCall.handler ChannelStore.handler listening) (store, facts) =
      ((store.hear now update imported).1, (store.hear now update imported).2, told) := by
  rcases IngestCall.run_storePart ChannelStore.handler listening
    (update.record patience now imported).run store facts with ⟨told, split⟩
  rw [ChannelJob.run_record_eq works sound patient] at split
  exact ⟨told, split⟩

/-- An update that cannot be shown is refused before anything is done. -/
theorem run_record_of_unshown {σ : Type} {cause : OutpointError}
    (unshown : ChannelEvent.ofUpdate update imported now = .error cause)
    (handler : Handler ingestCalls σ) (state : σ) :
    (update.record patience now imported).run.run handler state =
      (.error (.outpoint cause), state) := by
  rw [record, unshown]
  rfl

/-- What has become of a recording where calls may fail: all that it would have been, or it was cut
off at a place from where it can start again. -/
theorem recorded_or_cut (state : Faulty ChannelStore) (sound : state.store.Sound)
    (patient : 0 < patience) (now : Timestamp) (update : ChannelUpdate)
    (imported listening : Bool) (facts : List Fact) :
    let failed := (update.record patience now imported).run.run
      (IngestCall.handler faultyHandler listening) (state, facts)
    failed.1 = (state.store.working.hear now update imported).1 ∧
        failed.2.1.store.working = (state.store.working.hear now update imported).2 ∨
      ∃ passage, state.store.working.Retains now update imported passage ∧
        passage.before.Sound ∧ CutAt passage failed.1 failed.2.1 := by
  intro failed
  have works := state.store.works_working
  rcases IngestCall.run_storePart faultyHandler listening
    (update.record patience now imported).run state facts with ⟨told, split⟩
  have ran : failed = _ := split
  rw [ran, ← ChannelJob.run_record_eq works sound.working patient]
  rcases (FailsFast.record patience now update imported).completes_or_cut state with
    same | ⟨passage, made, cut⟩
  · exact Or.inl same
  · have soundBefore := Program.holds_before_passages ChannelStore.Sound
      (fun request _ held => held.of_handler request) sound.working passage made
    rw [← ChannelJob.passages_begin_record] at made
    exact Or.inr ⟨passage, ChannelJob.retains_of_mem_passages works sound.working patient made,
      soundBefore, cut⟩

/-- A recording that ends with a failure of the storage was cut off at the call that failed. -/
theorem cut_of_storageFailure (state : Faulty ChannelStore) (sound : state.store.Sound)
    (patient : 0 < patience) {listening : Bool} {facts : List Fact} {operation details : String}
    {after : Faulty ChannelStore × List Fact}
    (failed : (update.record patience now imported).run.run
      (IngestCall.handler faultyHandler listening) (state, facts) =
        (.error (.store (.storageFailure operation details)), after)) :
    ∃ passage, state.store.working.Retains now update imported passage ∧ passage.before.Sound ∧
      passage.request.operation = operation ∧ after.1.store.working = passage.before := by
  have came := recorded_or_cut state sound patient now update imported listening facts
  rw [failed] at came
  rcases came with ⟨result, _⟩ | ⟨passage, retains, soundBefore, cut⟩
  · exact absurd result.symm ChannelStore.hear_ne_storageFailure
  · rcases cut.result with ⟨_, told⟩
    cases told
    exact ⟨passage, retains, soundBefore, rfl, cut.after⟩

/-- A recording that fails appends no event.  If the update cannot be shown, no fact has been told
and the store is unchanged.  If a change of status or the insertion of the event failed in the
storage, the same update can be recorded again once the store works: it leaves the same channels and
the same new event as a recording that has not failed, the instants apart. -/
theorem failed_recording_can_be_repeated (deeds : List ChannelDeed) (plans : List FaultPlan)
    (patience : Nat) (patient : 0 < patience) (now : Timestamp) (update : ChannelUpdate)
    (imported listening : Bool) (facts : List Fact) :
    let store := ChannelDeed.applyAll .empty deeds
    let failed := (update.record patience now imported).run.run
      (IngestCall.handler faultyHandler listening) (⟨store, plans⟩, facts)
    (∀ error, failed.1 = .error error → failed.2.1.store.events = store.events) ∧
      (∀ cause, failed.1 = .error (.outpoint cause) → failed.2 = (⟨store, plans⟩, facts)) ∧
      ∀ operation details, failed.1 = .error (.store (.storageFailure operation details)) →
        operation = "change_status" ∨ operation = "insert_channel_event" →
        ∀ later other,
          let alone (now : Timestamp) (store : ChannelStore) :=
            (update.record patience now imported).run.run
              (IngestCall.handler ChannelStore.handler listening) (store, facts)
          let repeated := alone later failed.2.1.store.working
          let unfailed := alone other store.working
          repeated.1 = .ok () ∧ unfailed.1 = .ok () ∧
            store.SameRecording repeated.2.1 later unfailed.2.1 other := by
  intro store failed
  have works := store.works_working
  have sound : store.Sound := .applyAll deeds
  have came := recorded_or_cut ⟨store, plans⟩ sound patient now update imported listening facts
  refine ⟨fun error ends => ?_, fun cause ends => ?_, ?_⟩
  · rcases came with ⟨result, after⟩ | ⟨passage, retains, _, cut⟩
    · have unnoted := ChannelStore.events_hear_of_error (result.symm.trans ends)
      rw [← after] at unnoted
      exact unnoted
    · exact (congrArg ChannelStore.events cut.after).trans retains.events
  · have unshown : ChannelEvent.ofUpdate update imported now = .error cause := by
      rcases came with ⟨result, _⟩ | ⟨_, _, _, cut⟩
      · exact ChannelStore.unshown_of_hear (result.symm.trans ends)
      · rcases cut.result with ⟨details, told⟩
        cases ends.symm.trans told
    exact congrArg Prod.snd (run_record_of_unshown unshown _ _)
  · intro operation details ends which later other alone repeated unfailed
    rcases cut_of_storageFailure ⟨store, plans⟩ sound patient (Prod.ext ends rfl) with
      ⟨passage, retains, soundBefore, same, left⟩
    have ensured : passage.request.operation ≠ "ensure_channel" := by
      rw [same]
      rcases which with rfl | rfl <;> decide
    rcases retains.repeats ensured later other with ⟨recorded, recordedOther, twins⟩
    rw [← left] at recorded twins soundBefore
    rcases exists_told (ChannelStore.works_working _) soundBefore patient later update imported
      listening facts with ⟨_, again⟩
    rcases exists_told works sound.working patient other update imported listening facts with
      ⟨_, anew⟩
    have repeats : repeated = _ := again
    have goesThrough : unfailed = _ := anew
    rw [repeats, goesThrough]
    exact ⟨recorded, recordedOther, twins.channels, twins.events⟩

/-- The insertion of an event fails when the channel at "ab:0" has been led from its opening to
being open already.  Recorded again, later, the update leads it nowhere and leaves its event.  An
update with an outpoint of no bytes is refused at once. -/
theorem failed_recording_can_be_repeated_advanced :
    let deeds : List ChannelDeed := [.call (.ensureChannel (.ofPoint "ab:0" .opening .epoch))]
    let store := ChannelDeed.applyAll .empty deeds
    let plans : List FaultPlan := [⟨"insert_channel_event", 0, some 1⟩]
    let failed := ((openAt "ab:0").record 1 ⟨5, 0⟩ false).run.run
      (IngestCall.handler faultyHandler true) (⟨store, plans⟩, [])
    let alone (now : Timestamp) (store : ChannelStore) :=
      ((openAt "ab:0").record 1 now false).run.run
        (IngestCall.handler ChannelStore.handler true) (store, [])
    let unshown := ((inactive ⟨[], 0⟩).record 1 ⟨5, 0⟩ false).run.run
      (IngestCall.handler faultyHandler true) (⟨store, plans⟩, [])
    0 < 1 ∧ failed.1 = .error (.store (.injected "insert_channel_event")) ∧
      failed.2.1.store.channels.rows.map Channel.status = [.open] ∧
      failed.2.1.store.events = [] ∧
      (alone ⟨9, 0⟩ failed.2.1.store.working).1 = .ok () ∧
      store.SameRecording (alone ⟨9, 0⟩ failed.2.1.store.working).2.1 ⟨9, 0⟩
        (alone ⟨5, 0⟩ store.working).2.1 ⟨5, 0⟩ ∧
      unshown.1 = .error (.outpoint ⟨0⟩) ∧ unshown.2 = (⟨store, plans⟩, []) := by
  intro deeds store plans failed alone unshown
  have recording := failed_recording_can_be_repeated deeds plans 1 Nat.one_pos ⟨5, 0⟩
    (openAt "ab:0") false true []
  have fails : failed.1 = .error (.store (.injected "insert_channel_event")) := rfl
  have again := recording.2.2 _ _ fails (Or.inr rfl) ⟨9, 0⟩ ⟨5, 0⟩
  have refused : unshown.1 = .error (.outpoint ⟨0⟩) := rfl
  have malformed := failed_recording_can_be_repeated deeds plans 1 Nat.one_pos ⟨5, 0⟩
    (inactive ⟨[], 0⟩) false true []
  exact ⟨Nat.one_pos, fails, rfl, recording.1 _ fails, again.1, again.2.2, refused,
    malformed.2.1 _ refused⟩

end ChannelUpdate

end NodeSteward
