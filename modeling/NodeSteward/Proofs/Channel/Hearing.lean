import NodeSteward.Proofs.Channel.Importing

/-!
# What a recording does to a store that works

Where no write is refused on purpose and nobody else works on the store, a recording can be told as
a function of the store: it ensures the channel, leads it on and notes the event.  Only a channel
that cannot be inserted, or an update that cannot be shown, stands in its way.

The writes come one after the other, and between any two of them a recording can be cut off.  None
of them has to be taken back then: a recording that starts again from what was left does what was
missing, and comes to the same.
-/

namespace NodeSteward

namespace ChannelStore

variable {store after : ChannelStore} {now : Timestamp} {wanted : NewChannel} {stored : Channel}
  {event : ChannelEvent} {update : ChannelUpdate} {imported : Bool}

/-- No write is refused on purpose. -/
structure Works (store : ChannelStore) : Prop where
  events : store.refusesEvents = false
  updates : store.refusesUpdates = false

/-- The store with its failing writes switched off. -/
def working (store : ChannelStore) : ChannelStore :=
  { store with refusesEvents := false, refusesUpdates := false }

theorem works_working (store : ChannelStore) : store.working.Works :=
  ⟨rfl, rfl⟩

theorem Sound.working (sound : store.Sound) : store.working.Sound :=
  ⟨sound.issued, sound.pointsOnce⟩

theorem Sound.of_working (sound : store.working.Sound) : store.Sound :=
  ⟨sound.issued, sound.pointsOnce⟩

/-- No call touches the switches. -/
theorem Works.of_handler (works : store.Works) (request : ChannelCall) :
    (handler request store).2.Works := by
  have changes := handler_changes request store
  generalize (handler request store).2 = after at changes
  cases changes <;> exact ⟨works.events, works.updates⟩

theorem Works.run {α : Type} (works : store.Works) (program : Program channelCalls α) :
    (program.run handler store).2.Works := by
  induction program generalizing store with
  | done result => exact works
  | call request next ih => exact ih _ (works.of_handler request)

/-! ## A recording as a function -/

/-- The store with one more event. -/
def note (store : ChannelStore) (event : ChannelEvent) : ChannelStore :=
  { store with events := store.events ++ [event] }

/-- The store when a channel that was read has been led on to the status in which it is wanted, if
it can come to it. -/
def lead (store : ChannelStore) (now : Timestamp) (wanted : NewChannel) (stored : Channel) :
    ChannelStore :=
  if stored.SettledFor wanted.status then store
  else (store.changeStatus now wanted.point (ChannelJob.wantedChange wanted stored)).2

/-- What the recording of an update comes to, and the store that it leaves. -/
def hear (store : ChannelStore) (now : Timestamp) (update : ChannelUpdate) (imported : Bool) :
    Except IngestError Unit × ChannelStore :=
  match ChannelEvent.ofUpdate update imported now with
  | .error cause => (.error (.outpoint cause), store)
  | .ok event =>
    match update.channel? now with
    | none => (.ok (), store.note event)
    | some wanted =>
      match store.ensureChannel wanted with
      | (.error cause, after) => (.error (.store cause), after)
      | (.ok stored, after) => (.ok (), (after.lead now wanted stored).note event)

/-- What taking over some entries of a listing comes to, where the channel points that were seen
are passed over. -/
def hearEntries (now : Timestamp) :
    List String → List (String × ChannelUpdate) → ChannelStore →
      Except IngestError Nat × ChannelStore
  | _, [], store => (.ok 0, store)
  | seen, (point, update) :: entries, store =>
    if point ∈ seen then hearEntries now seen entries store
    else
      match store.hear now update true with
      | (.error cause, after) => (.error cause, after)
      | (.ok _, after) =>
        ((hearEntries now (point :: seen) entries after).1.map (· + 1),
          (hearEntries now (point :: seen) entries after).2)

theorem hear_of_unshown {cause : OutpointError}
    (unshown : ChannelEvent.ofUpdate update imported now = .error cause) :
    store.hear now update imported = (.error (.outpoint cause), store) := by
  rw [hear, unshown]

theorem hear_of_none (shown : ChannelEvent.ofUpdate update imported now = .ok event)
    (missing : update.channel? now = none) :
    store.hear now update imported = (.ok (), store.note event) := by
  rw [hear, shown]
  dsimp only
  rw [missing]

theorem hear_of_refused (shown : ChannelEvent.ofUpdate update imported now = .ok event)
    (asks : update.channel? now = some wanted) {cause : StoreError}
    (refused : (store.ensureChannel wanted).1 = .error cause) :
    store.hear now update imported = (.error (.store cause), (store.ensureChannel wanted).2) := by
  rw [hear, shown]
  dsimp only
  rw [asks]
  dsimp only
  rcases ensured : store.ensureChannel wanted with ⟨answer, after⟩
  rw [ensured] at refused
  cases refused
  rfl

theorem hear_of_ensured (shown : ChannelEvent.ofUpdate update imported now = .ok event)
    (asks : update.channel? now = some wanted)
    (ensured : store.ensureChannel wanted = (.ok stored, after)) :
    store.hear now update imported = (.ok (), (after.lead now wanted stored).note event) := by
  rw [hear, shown]
  dsimp only
  rw [asks]
  dsimp only
  rw [ensured]

theorem ensureChannel_of_found (found : store.channelAt? wanted.point = some stored) :
    store.ensureChannel wanted = (.ok stored, store) := by
  rw [ensureChannel, found]

theorem insertEvent_of_works (works : store.Works) (event : ChannelEvent) :
    store.insertEvent event = (.ok (), store.note event) := by
  rw [insertEvent, if_neg (Bool.not_eq_true _ ▸ works.events)]
  rfl

theorem lead_of_settledFor (settled : stored.SettledFor wanted.status) :
    store.lead now wanted stored = store :=
  if_pos settled

/-- A working store makes the change of status that was asked for. -/
theorem changeStatus_of_not_settledFor (works : store.Works) (now : Timestamp)
    (found : store.channelAt? wanted.point = some stored)
    (unsettled : ¬ stored.SettledFor wanted.status) :
    store.changeStatus now wanted.point (ChannelJob.wantedChange wanted stored) =
      (.ok true, store.lead now wanted stored) := by
  rw [lead, if_neg unsettled]
  refine Prod.ext ?_ rfl
  have applies : ∃ moved, stored.applyStatusChange? (ChannelJob.wantedChange wanted stored) =
      some moved := ⟨_, Channel.applyStatusChange?_eq_some_iff.mpr ⟨rfl, rfl⟩⟩
  rcases applies with ⟨moved, applies⟩
  simp only [changeStatus, works.updates, Bool.false_eq_true, if_false, found, applies]

theorem events_ensureChannel (store : ChannelStore) (wanted : NewChannel) :
    (store.ensureChannel wanted).2.events = store.events :=
  events_of_not_insertEvent fun _ (same : ChannelCall.ensureChannel wanted = _) => nomatch same

theorem events_lead (store : ChannelStore) (now : Timestamp) (wanted : NewChannel)
    (stored : Channel) : (store.lead now wanted stored).events = store.events := by
  rw [lead]
  split
  · rfl
  · exact events_of_not_insertEvent fun _
      (same : ChannelCall.changeStatus now wanted.point _ = _) => nomatch same

/-- A channel is refused for its short identifier only. -/
theorem isConstraintViolation_of_ensureChannel {cause : StoreError}
    (refused : (store.ensureChannel wanted).1 = .error cause) :
    cause.isConstraintViolation = true := by
  revert refused
  rw [ensureChannel]
  split
  · rintro ⟨⟩
  · dsimp only
    split
    · split
      · rintro ⟨⟩
        rfl
      · rintro ⟨⟩
    · rintro ⟨⟩

/-- All that can come of a recording: an update that cannot be shown changes nothing, a channel that
is refused leaves no event, and otherwise there is one more event. -/
theorem hear_cases (store : ChannelStore) (now : Timestamp) (update : ChannelUpdate)
    (imported : Bool) :
    (∃ cause, ChannelEvent.ofUpdate update imported now = .error cause ∧
        store.hear now update imported = (.error (.outpoint cause), store)) ∨
      (∃ cause, cause.isConstraintViolation = true ∧
        (store.hear now update imported).1 = .error (.store cause) ∧
        (store.hear now update imported).2.events = store.events) ∨
      ∃ event, ChannelEvent.ofUpdate update imported now = .ok event ∧
        (store.hear now update imported).1 = .ok () ∧
        (store.hear now update imported).2.events = store.events ++ [event] := by
  cases shown : ChannelEvent.ofUpdate update imported now with
  | error cause => exact Or.inl ⟨cause, rfl, hear_of_unshown shown⟩
  | ok event =>
    refine Or.inr ?_
    cases asks : update.channel? now with
    | none =>
      rw [hear_of_none shown asks]
      exact Or.inr ⟨event, rfl, rfl, rfl⟩
    | some wanted =>
      have unnoted := store.events_ensureChannel wanted
      rcases ensured : store.ensureChannel wanted with ⟨cause | stored, after⟩
      · have refused : (store.ensureChannel wanted).1 = .error cause := congrArg Prod.fst ensured
        rw [hear_of_refused shown asks refused]
        exact Or.inl ⟨cause, isConstraintViolation_of_ensureChannel refused, rfl, unnoted⟩
      · rw [ensured] at unnoted
        rw [hear_of_ensured shown asks ensured]
        refine Or.inr ⟨event, rfl, rfl, ?_⟩
        show (after.lead now wanted stored).events ++ [event] = _
        rw [events_lead, unnoted]

/-- A channel that was led on is settled, and nothing else has come to the store. -/
structure Leads (wanted : NewChannel) (store after : ChannelStore) : Prop where
  sound : after.Sound
  works : after.Works
  events : after.events = store.events
  settled : ∃ held, after.channelAt? wanted.point = some held ∧ held.SettledFor wanted.status

theorem leads_lead (sound : store.Sound) (works : store.Works) (now : Timestamp)
    (found : store.channelAt? wanted.point = some stored) :
    Leads wanted store (store.lead now wanted stored) := by
  by_cases settled : stored.SettledFor wanted.status
  · rw [lead_of_settledFor settled]
    exact ⟨sound, works, rfl, stored, found, settled⟩
  · let change : ChannelCall :=
      .changeStatus now wanted.point (ChannelJob.wantedChange wanted stored)
    have changed := changeStatus_of_not_settledFor works now found settled
    have led : (handler change store).2 = store.lead now wanted stored := congrArg Prod.snd changed
    rw [← led]
    rcases channelAt?_of_changeStatus sound (congrArg Prod.fst changed) with ⟨held, there, status⟩
    exact ⟨sound.of_handler change, works.of_handler change, led ▸ events_lead _ _ _ _, held, there,
      Or.inl status⟩

/-- Before an exchange of a recording nothing is lost of it: recorded from here on, the update comes
to the same, and its event is still to be noted.  Once the channel is ensured, the recording ends
well. -/
structure Retains (store : ChannelStore) (now : Timestamp) (update : ChannelUpdate)
    (imported : Bool) (passage : Passage channelCalls ChannelStore) : Prop where
  again : passage.before.hear now update imported = store.hear now update imported
  events : passage.before.events = store.events
  recorded : passage.request.operation ≠ "ensure_channel" →
    (store.hear now update imported).1 = .ok ()

end ChannelStore

/-! ## The course of a recording -/

namespace ChannelJob

open ChannelStore

variable {store middle after : ChannelStore} {now : Timestamp} {wanted : NewChannel}
  {stored : Channel} {event : ChannelEvent} {update : ChannelUpdate} {imported : Bool}
  {patience : Nat}

theorem run_inserting_of_works (works : store.Works) (event : ChannelEvent) :
    (inserting event).run ChannelStore.handler store = (.recorded (.ok ()), store.note event) := by
  rw [inserting, Program.run, Program.run, ChannelStore.handler, insertEvent_of_works works]
  rfl

/-- The last exchange of a recording whose status is settled. -/
theorem mem_passages_inserting {passage : Passage channelCalls ChannelStore} :
    passage ∈ (inserting event).passages ChannelStore.handler store ↔
      passage = .through ChannelStore.handler (.insertEvent event) store :=
  List.mem_singleton

/-- A recording whose status is not settled asks for the change of status. -/
theorem advancing_eq (now : Timestamp) (event : ChannelEvent) (patient : 0 < patience)
    (filed : stored.point = wanted.point) (unsettled : ¬ stored.SettledFor wanted.status) :
    ∃ next, advancing now wanted event patience stored =
        .call (I := channelCalls) (.changeStatus now wanted.point (wantedChange wanted stored))
          next ∧
      next (.ok true) = inserting event := by
  rcases Nat.exists_eq_succ_of_ne_zero (Nat.ne_of_gt patient) with ⟨rest, rfl⟩
  exact ⟨_, advancing_of_not_settledFor filed unsettled, rfl⟩

/-- A recording that has read its channel leads it on and then inserts its event. -/
theorem run_advancing_of_works (works : store.Works) (sound : store.Sound) (patient : 0 < patience)
    (found : store.channelAt? wanted.point = some stored) :
    (advancing now wanted event patience stored).run ChannelStore.handler store =
      (.recorded (.ok ()), (store.lead now wanted stored).note event) := by
  by_cases settled : stored.SettledFor wanted.status
  · rw [advancing_of_settledFor settled, lead_of_settledFor settled]
    exact run_inserting_of_works works event
  · have filed := (point_of_channelAt? found).2
    have led := leads_lead sound works now found
    rcases advancing_eq now event patient filed settled with ⟨next, begins, goesOn⟩
    rw [begins, Program.run, ChannelStore.handler,
      changeStatus_of_not_settledFor works now found settled, goesOn]
    exact run_inserting_of_works led.works event

theorem mem_passages_advancing (works : store.Works) (patient : 0 < patience)
    (found : store.channelAt? wanted.point = some stored)
    {passage : Passage channelCalls ChannelStore}
    (made : passage ∈ (advancing now wanted event patience stored).passages ChannelStore.handler
      store) :
    passage.before = store ∨ passage.before = store.lead now wanted stored := by
  by_cases settled : stored.SettledFor wanted.status
  · rw [advancing_of_settledFor settled, mem_passages_inserting] at made
    exact Or.inl (made ▸ rfl)
  · have filed := (point_of_channelAt? found).2
    rcases advancing_eq now event patient filed settled with ⟨next, begins, goesOn⟩
    rw [begins, Program.passages, ChannelStore.handler,
      changeStatus_of_not_settledFor works now found settled, goesOn] at made
    rcases List.mem_cons.mp made with rfl | last
    · exact Or.inl rfl
    · exact Or.inr (mem_passages_inserting.mp last ▸ rfl)

/-- A recording that ensures a channel goes on with the channel that it has read. -/
theorem begin_record_of_ensured (shown : ChannelEvent.ofUpdate update imported now = .ok event)
    (asks : update.channel? now = some wanted)
    (ensured : store.ensureChannel wanted = (.ok stored, after)) :
    (record patience now update imported).begin.passages ChannelStore.handler store =
        .through ChannelStore.handler (.ensureChannel wanted) store ::
          (advancing now wanted event patience stored).passages ChannelStore.handler after ∧
      (record patience now update imported).begin.run ChannelStore.handler store =
        (advancing now wanted event patience stored).run ChannelStore.handler after := by
  rw [begin_record_of_some shown asks, Program.passages, Program.run]
  have answered : ChannelStore.handler (.ensureChannel wanted) store = (.ok stored, after) :=
    ensured
  rw [answered]
  exact ⟨rfl, rfl⟩

/-- The channel that was ensured is there, in a store that is as good as before. -/
theorem ensured_found (works : store.Works) (sound : store.Sound)
    (ensured : store.ensureChannel wanted = (.ok stored, after)) :
    after.Works ∧ after.Sound ∧ after.events = store.events ∧
      after.channelAt? wanted.point = some stored := by
  have left : (ChannelStore.handler (.ensureChannel wanted) store).2 = after :=
    congrArg Prod.snd ensured
  rw [← left]
  exact ⟨works.of_handler _, sound.of_handler _, events_ensureChannel store wanted,
    channelAt?_of_ensureChannel sound (congrArg Prod.fst ensured)⟩

/-- Alone with a store that works, a recording is the function of the store. -/
theorem alone_record_eq (works : store.Works) (sound : store.Sound) (patient : 0 < patience) :
    (record patience now update imported).alone store =
      (.recorded (store.hear now update imported).1, (store.hear now update imported).2) := by
  rw [alone]
  cases shown : ChannelEvent.ofUpdate update imported now with
  | error cause =>
    rw [begin_record_of_unshown shown, hear_of_unshown shown]
    rfl
  | ok event =>
    cases asks : update.channel? now with
    | none =>
      rw [begin_record_of_none shown asks, hear_of_none shown asks]
      exact run_inserting_of_works works event
    | some wanted =>
      rcases ensured : store.ensureChannel wanted with ⟨refused | stored, after⟩
      · have answered : (store.ensureChannel wanted).1 = .error refused :=
          congrArg Prod.fst ensured
        rw [begin_record_of_some shown asks, hear_of_refused shown asks answered, Program.run,
          ChannelStore.handler, ensured]
        rfl
      · rcases ensured_found works sound ensured with ⟨worksAfter, soundAfter, _, found⟩
        rw [(begin_record_of_ensured shown asks ensured).2, hear_of_ensured shown asks ensured]
        exact run_advancing_of_works worksAfter soundAfter patient found

/-- Wherever a recording is cut off, it can start again. -/
theorem retains_of_mem_passages (works : store.Works) (sound : store.Sound) (patient : 0 < patience)
    {passage : Passage channelCalls ChannelStore}
    (made : passage ∈ (record patience now update imported).begin.passages ChannelStore.handler
      store) :
    store.Retains now update imported passage := by
  cases shown : ChannelEvent.ofUpdate update imported now with
  | error cause =>
    rw [begin_record_of_unshown shown] at made
    exact absurd made List.not_mem_nil
  | ok event =>
    cases asks : update.channel? now with
    | none =>
      rw [begin_record_of_none shown asks, mem_passages_inserting] at made
      subst made
      exact ⟨rfl, rfl, fun _ => congrArg Prod.fst (hear_of_none shown asks)⟩
    | some wanted =>
      rcases ensured : store.ensureChannel wanted with ⟨refused | stored, after⟩
      · rw [begin_record_of_some shown asks, Program.passages, ChannelStore.handler, ensured]
          at made
        rcases List.mem_cons.mp made with rfl | later
        · exact ⟨rfl, rfl, fun other => absurd rfl other⟩
        · exact absurd later List.not_mem_nil
      · rcases ensured_found works sound ensured with ⟨worksAfter, soundAfter, events, found⟩
        have heard := hear_of_ensured shown asks ensured
        rw [(begin_record_of_ensured shown asks ensured).1] at made
        rcases List.mem_cons.mp made with rfl | later
        · exact ⟨rfl, rfl, fun other => absurd rfl other⟩
        rcases mem_passages_advancing worksAfter patient found later with here | here
        · rw [← here] at found events
          refine ⟨?_, events, fun _ => congrArg Prod.fst heard⟩
          rw [heard, hear_of_ensured shown asks (ensureChannel_of_found found), here]
        · have led := leads_lead soundAfter worksAfter now found
          rcases led.settled with ⟨held, there, settled⟩
          rw [← here] at there led
          refine ⟨?_, led.events.trans events, fun _ => congrArg Prod.fst heard⟩
          rw [heard, hear_of_ensured shown asks (ensureChannel_of_found there),
            lead_of_settledFor settled, here]

/-- What a recording asks of a store that works comes to the function of the store. -/
theorem run_record_eq (works : store.Works) (sound : store.Sound) (patient : 0 < patience) :
    (IngestCall.storePart (update.record patience now imported).run).run ChannelStore.handler
      store = store.hear now update imported :=
  run_of_alone_record (alone_record_eq works sound patient)

end ChannelJob

namespace ChannelStore

variable {store : ChannelStore} {now : Timestamp}

theorem Works.hear (works : store.Works) (sound : store.Sound) (now : Timestamp)
    (update : ChannelUpdate) (imported : Bool) : (store.hear now update imported).2.Works := by
  rw [← ChannelJob.run_record_eq works sound Nat.one_pos]
  exact works.run _

theorem Sound.hear (sound : store.Sound) (works : store.Works) (now : Timestamp)
    (update : ChannelUpdate) (imported : Bool) : (store.hear now update imported).2.Sound := by
  rw [← ChannelJob.run_record_eq works sound Nat.one_pos]
  exact sound.run _

theorem hearEntries_of_mem {seen : List String} {point : String} (known : point ∈ seen)
    (update : ChannelUpdate) (entries : List (String × ChannelUpdate)) (store : ChannelStore) :
    hearEntries now seen ((point, update) :: entries) store = hearEntries now seen entries store :=
  if_pos known

theorem hearEntries_of_error {seen : List String} {point : String} {update : ChannelUpdate}
    {cause : IngestError} {after : ChannelStore} (new : point ∉ seen)
    (failed : store.hear now update true = (.error cause, after))
    (entries : List (String × ChannelUpdate)) :
    hearEntries now seen ((point, update) :: entries) store = (.error cause, after) := by
  rw [hearEntries, if_neg new, failed]

theorem hearEntries_of_ok {seen : List String} {point : String} {update : ChannelUpdate}
    {after : ChannelStore} (new : point ∉ seen)
    (heard : store.hear now update true = (.ok (), after))
    (entries : List (String × ChannelUpdate)) :
    hearEntries now seen ((point, update) :: entries) store =
      ((hearEntries now (point :: seen) entries after).1.map (· + 1),
        (hearEntries now (point :: seen) entries after).2) := by
  rw [hearEntries, if_neg new, heard]

end ChannelStore

/-- What an import asks of a store that works comes to the same as one recording after the other. -/
theorem Listing.run_importing_eq {patience : Nat} {now : Timestamp}
    (patient : 0 < patience) (seen : List String) (entries : List (String × ChannelUpdate))
    {store : ChannelStore} (works : store.Works) (sound : store.Sound) :
    (importing patience now seen entries).run ChannelStore.handler store =
      ChannelStore.hearEntries now seen entries store := by
  induction entries generalizing seen store with
  | nil => rfl
  | cons entry entries ih =>
    rcases entry with ⟨point, update⟩
    by_cases known : point ∈ seen
    · rw [importing_of_mem known, ChannelStore.hearEntries_of_mem known]
      exact ih seen works sound
    · have worksAfter := works.hear sound now update true
      have soundAfter := sound.hear works now update true
      rw [importing_of_not_mem known, Program.run_bind,
        ChannelJob.run_record_eq works sound patient]
      rcases heard : store.hear now update true with ⟨cause | _, after⟩
      · rw [ChannelStore.hearEntries_of_error known heard]
        rfl
      · rw [heard] at worksAfter soundAfter
        rw [ChannelStore.hearEntries_of_ok known heard]
        dsimp only
        rw [Program.run_bind, ih (point :: seen) worksAfter soundAfter]
        rfl

end NodeSteward
