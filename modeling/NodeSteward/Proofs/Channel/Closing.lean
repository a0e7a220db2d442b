import NodeSteward.Proofs.Channel.Recording

/-!
# A recorded close closes the channel

Reports bring a channel only to be open or closed, and sweeps leave its status alone.  An open
channel can be closed in every way except that its funding was cancelled, and no closed channel is
ever opened again.  So a close that was recorded leaves a closed channel, unless it reports that
the funding of an open channel was cancelled.  Then the channel stays open, and only the event
tells of the close.
-/

namespace NodeSteward

namespace ChannelCall

/-- A call that brings channels only to statuses that reports ask for. -/
def AsReported : ChannelCall → Prop
  | ensureChannel wanted => wanted.status.Reported
  | changeStatus _ _ change => change.target.Reported
  | _ => True

variable {request : ChannelCall} {store : ChannelStore}

theorem Ingests.asReported (ingests : request.Ingests) : request.AsReported := by
  cases request with
  | ensureChannel => exact ingests
  | changeStatus => exact ingests.2
  | _ => trivial

theorem Sweeps.asReported (sweeps : request.Sweeps store) : request.AsReported := by
  cases request with
  | ensureChannel => exact sweeps.elim
  | changeStatus => exact sweeps.elim
  | _ => trivial

end ChannelCall

theorem ChannelJob.Allowed.asReported {job : ChannelJob} {store : ChannelStore}
    {request : ChannelCall} (allowed : job.Allowed store request) : request.AsReported := by
  cases job with
  | sweep => exact ChannelCall.Sweeps.asReported allowed.2
  | _ => exact ChannelCall.Ingests.asReported allowed.2

theorem Channel.Rewrites.reported {request : ChannelCall} {channel written : Channel}
    (rewrites : Rewrites request channel written) (asReported : request.AsReported)
    (reported : channel.status.Reported) : written.status.Reported := by
  cases rewrites with
  | confirmed _ now transaction confirmation => cases transaction <;> exact reported
  | named => exact reported
  | moved now change applies =>
    rw [(applyStatusChange?_eq_some_iff.mp applies).2]
    exact asReported

/-- The store is sound, and each of its channels is open or closed. -/
structure ChannelStore.Ingested (store : ChannelStore) : Prop where
  sound : store.Sound
  reported : ∀ channel ∈ store.channels.rows, channel.status.Reported

namespace ChannelStore.Ingested

variable {store : ChannelStore} {request : ChannelCall}

theorem empty : ChannelStore.empty.Ingested :=
  ⟨.empty, fun _ member => absurd member List.not_mem_nil⟩

theorem of_handler (ingested : store.Ingested) (asReported : request.AsReported) :
    (handler request store).2.Ingested := by
  refine ⟨ingested.sound.of_handler request, ?_⟩
  intro held present
  rcases (handler_changes request store).source ingested.sound present with
    ⟨channel, member, rfl | rewrites⟩ | ⟨wanted, rfl, _, rfl⟩
  · exact ingested.reported held member
  · exact rewrites.reported asReported (ingested.reported channel member)
  · exact asReported

end ChannelStore.Ingested

/-- Work on the store: a job, or a switch by which the store refuses what jobs ask of it. -/
inductive ChannelWork where
  | job (job : ChannelJob)
  | refuseEvents (refuses : Bool)
  | refuseUpdates (refuses : Bool)

namespace ChannelWork

def apply (store : ChannelStore) : ChannelWork → ChannelStore
  | .job given => (given.alone store).2
  | .refuseEvents refuses => { store with refusesEvents := refuses }
  | .refuseUpdates refuses => { store with refusesUpdates := refuses }

/-- The store after some work, one piece after the other. -/
def applyAll (store : ChannelStore) (works : List ChannelWork) : ChannelStore :=
  works.foldl apply store

end ChannelWork

namespace ChannelStore.Ingested

variable {store : ChannelStore}

/-- A job that works alone leads the channels on, and leaves each of them open or closed. -/
theorem of_alone (ingested : store.Ingested) (job : ChannelJob) :
    store.Forward (job.alone store).2 ∧ (job.alone store).2.Ingested := by
  have keeps := ChannelJob.begin_keeps ingested.sound job
  apply keeps.holds_after_run (fun after => store.Forward after ∧ after.Ingested) .refl
  · rintro request now allowed ⟨forward, ingestedNow⟩
    have further := ChannelStore.forward_of_orderly allowed.orderly now
    exact ⟨forward.trans further, ingestedNow.of_handler allowed.asReported⟩
  · exact ⟨.refl store, ingested⟩

theorem of_switch (ingested : store.Ingested) (refusesEvents refusesUpdates : Bool) :
    store.Forward { store with refusesEvents, refusesUpdates } ∧
      ChannelStore.Ingested { store with refusesEvents, refusesUpdates } := by
  refine ⟨fun sound => ⟨⟨sound.issued, sound.pointsOnce⟩, ?_⟩, ?_⟩
  · exact ChannelStore.Each.refl store Channel.Later.refl
  · exact ⟨⟨ingested.sound.issued, ingested.sound.pointsOnce⟩, ingested.reported⟩

theorem of_apply (ingested : store.Ingested) (work : ChannelWork) :
    store.Forward (ChannelWork.apply store work) ∧ (ChannelWork.apply store work).Ingested := by
  cases work with
  | job given => exact ingested.of_alone given
  | refuseEvents refuses => exact ingested.of_switch refuses store.refusesUpdates
  | refuseUpdates refuses => exact ingested.of_switch store.refusesEvents refuses

theorem of_applyAll (ingested : store.Ingested) (works : List ChannelWork) :
    store.Forward (ChannelWork.applyAll store works) ∧
      (ChannelWork.applyAll store works).Ingested := by
  induction works generalizing store with
  | nil => exact ⟨.refl store, ingested⟩
  | cons work works ih =>
    rcases ingested.of_apply work with ⟨forward, ingestedNow⟩
    rcases ih ingestedNow with ⟨further, ingestedThen⟩
    exact ⟨forward.trans further, ingestedThen⟩

end ChannelStore.Ingested

namespace IngestCall

theorem storePart_bind {α β : Type} (program : Program ingestCalls α)
    (next : α → Program ingestCalls β) :
    storePart (program >>= next) = storePart program >>= fun result => storePart (next result) := by
  induction program with
  | done result => rfl
  | call request answer ih =>
    cases request with
    | store request => exact congrArg (Program.call _) (funext ih)
    | publish fact => exact ih ()

end IngestCall

namespace Listing

variable {patience : Nat} {now : Timestamp}

/-- The recordings that an import makes of some entries: it passes over the channel points that it
has seen, and the first failure ends it. -/
def entryRecordings (patience : Nat) (now : Timestamp) :
    List String → List (String × ChannelUpdate) → ChannelStore → List ChannelWork
  | _, [], _ => []
  | seen, (point, update) :: entries, store =>
    if point ∈ seen then entryRecordings patience now seen entries store
    else
      match (ChannelJob.record patience now update true).alone store with
      | (.recorded (.ok ()), after) =>
        .job (.record patience now update true) ::
          entryRecordings patience now (point :: seen) entries after
      | _ => [.job (.record patience now update true)]

/-- The recordings that an import makes of a listing. -/
def recordings (patience : Nat) (now : Timestamp) (listing : Listing) (store : ChannelStore) :
    List ChannelWork :=
  entryRecordings patience now
    (store.existingPoints listing.kind.eventType (listing.entries.map Prod.fst)) listing.entries
    store

theorem run_importEntries (seen : List String) (entries : List (String × ChannelUpdate))
    (store : ChannelStore) :
    ((IngestCall.storePart (importEntries patience now seen entries).run).run
      ChannelStore.handler store).2 =
        ChannelWork.applyAll store (entryRecordings patience now seen entries store) := by
  induction entries generalizing seen store with
  | nil => rfl
  | cons entry entries ih =>
    rcases entry with ⟨point, update⟩
    rw [importEntries, entryRecordings]
    split
    · exact ih seen store
    · rcases ran : (IngestCall.storePart (update.record patience now true).run).run
        ChannelStore.handler store with ⟨result, middle⟩
      have alone : (ChannelJob.record patience now update true).alone store =
          (.recorded result, middle) := by
        rw [ChannelJob.alone, ChannelJob.begin, Program.run_bind, ran]
        rfl
      have recorded : ChannelWork.apply store (.job (.record patience now update true)) =
          middle := congrArg Prod.snd alone
      rw [ExceptT.run_bind, IngestCall.storePart_bind, Program.run_bind, ran, alone]
      cases result with
      | error cause => exact recorded.symm
      | ok value =>
        have same := ih (point :: seen) middle
        rcases rest : (IngestCall.storePart
          (importEntries patience now (point :: seen) entries).run).run
            ChannelStore.handler middle with ⟨others, last⟩
        -- what is left counts the recordings, and makes no further call
        rw [rest, ← recorded] at same
        dsimp only
        rw [ExceptT.run_bind, IngestCall.storePart_bind, Program.run_bind, rest, ← recorded]
        cases others with
        | error cause => exact same
        | ok others => exact same

/-- An import leaves the store as its recordings do. -/
theorem alone_takeOver (patience : Nat) (now : Timestamp) (listing : Listing)
    (store : ChannelStore) :
    ((ChannelJob.takeOver patience now (.ok listing)).alone store).2 =
      ChannelWork.applyAll store (listing.recordings patience now store) := by
  rw [recordings, ← run_importEntries, ChannelJob.alone, ChannelJob.begin, Program.run_bind]
  rfl

end Listing

/-! ## Closes that were recorded -/

/-- The close tells that the funding of a channel was cancelled, and the channel is open. -/
def ChannelStore.CancelsOpen (store : ChannelStore) (close : ClosedChannel) : Prop :=
  close.closeType = .fundingCanceled ∧
    ∃ channel, store.channelAt? close.point = some channel ∧ channel.status = .open

namespace ChannelStore

variable {before after : ChannelStore} {now : Timestamp} {close : ClosedChannel} {imported : Bool}

theorem Hears.closes (heard : before.Hears now (.closed close) imported after)
    (ingested : before.Ingested) (takes : ¬ before.CancelsOpen close) :
    ∃ channel, after.channelAt? close.point = some channel ∧
      channel.status.isTerminal = true := by
  have asks : ∃ wanted, (ChannelUpdate.closed close).channel? now = some wanted := ⟨_, rfl⟩
  rcases asks with ⟨wanted, asks⟩
  rcases ChannelUpdate.wanted_of_closed asks with ⟨filed, status, _⟩
  have closes : wanted.status.isTerminal = true := by
    rw [status]
    exact close.closeType.isTerminal_status
  rw [← filed]
  cases held : before.channelAt? wanted.point with
  | none =>
    rcases heard.inserted wanted asks held with ⟨id, there⟩
    exact ⟨_, there, closes⟩
  | some channel =>
    refine ⟨_, heard.advanced wanted channel asks held, ?_⟩
    rcases ingested.reported channel (point_of_channelAt? held).1 with opened | closed
    · have unsettled : ¬ channel.SettledFor wanted.status := by
        rw [status, Channel.settledFor_close_iff opened]
        intro cancelled
        exact takes ⟨cancelled, channel, filed ▸ held, opened⟩
      rw [Channel.hears_of_not_settledFor unsettled]
      exact closes
    · rw [Channel.hears_of_isTerminal closed]
      exact closed

theorem Hears.leaves_open (heard : before.Hears now (.closed close) imported after)
    (cancels : before.CancelsOpen close) :
    after.channelAt? close.point = before.channelAt? close.point := by
  rcases cancels with ⟨cancelled, channel, held, opened⟩
  have settled := (Channel.settledFor_close_iff opened close.closeType).mpr cancelled
  rw [held]
  refine (heard.advanced _ channel rfl held).trans (congrArg some ?_)
  exact Channel.hears_of_settledFor settled

end ChannelStore

namespace ChannelWork

/-- A close that was recorded leaves a closed channel, then and after all later work, unless it
cancels the funding of an open channel, which stays as it was.  Imports are made of recordings, so
that this goes for the closes of a listing too. -/
theorem recorded_close_lasts (works : List ChannelWork) (patience : Nat) (now : Timestamp)
    (close : ClosedChannel) (imported : Bool) (after : ChannelStore)
    (recorded : (ChannelJob.record patience now (.closed close) imported).alone
      (applyAll .empty works) = (.recorded (.ok ()), after)) :
    (¬ (applyAll .empty works).CancelsOpen close → ∀ later, ∃ channel,
      (applyAll after later).channelAt? close.point = some channel ∧
        channel.status.isTerminal = true) ∧
    ((applyAll .empty works).CancelsOpen close →
      after.channelAt? close.point = (applyAll .empty works).channelAt? close.point) ∧
    ∀ patience now listing store,
      ((ChannelJob.takeOver patience now (.ok listing)).alone store).2 =
        applyAll store (listing.recordings patience now store) := by
  have ingested := (ChannelStore.Ingested.empty.of_applyAll works).2
  have heard := ChannelJob.hears_of_alone ingested.sound recorded
  refine ⟨fun takes later => ?_, heard.leaves_open, Listing.alone_takeOver⟩
  have ingestedNow : after.Ingested := by
    have kept := (ingested.of_alone (.record patience now (.closed close) imported)).2
    rw [recorded] at kept
    exact kept
  rcases heard.closes ingested takes with ⟨channel, found, closed⟩
  have forward := (ingestedNow.of_applyAll later).1
  rcases forward.channelAt? ingestedNow.sound found with ⟨held, there, further⟩
  refine ⟨held, there, ?_⟩
  rw [further.status_of_isTerminal closed]
  exact closed

/-- Work after which there is one open channel. -/
def opened : List ChannelWork :=
  [.job (.takeOver 3 .epoch (.ok (.open [⟨7, "ab:0", "key", 5000, false, true, true⟩])))]

/-- A breach is not undone by the late report that the channel is open. -/
theorem recorded_close_lasts_lateOpen :
    let close : ClosedChannel := ⟨7, "ab:0", "key", 5000, "cd", 700, 0, .breach⟩
    let ran := (ChannelJob.record 3 .epoch (.closed close) false).alone (applyAll .empty opened)
    ran.1 = .recorded (.ok ()) ∧ ¬ (applyAll .empty opened).CancelsOpen close ∧
      ∃ channel, (applyAll ran.2 [.job (.record 3 .epoch (.openAt "ab:0") false)]).channelAt?
        "ab:0" = some channel ∧ channel.status.isTerminal = true := by
  intro close ran
  have takes : ¬ (applyAll .empty opened).CancelsOpen close := fun cancels => nomatch cancels.1
  exact ⟨rfl, takes, (recorded_close_lasts opened 3 .epoch close false ran.2 rfl).1 takes _⟩

/-- That the funding of an open channel was cancelled is recorded, and leaves the channel open. -/
theorem not_closed_cancelledOpen :
    ¬ ∀ (works : List ChannelWork) (patience : Nat) (now : Timestamp) (close : ClosedChannel)
        (imported : Bool) (after : ChannelStore),
      (ChannelJob.record patience now (.closed close) imported).alone (applyAll .empty works) =
          (.recorded (.ok ()), after) →
        ∀ later, ∃ channel, (applyAll after later).channelAt? close.point = some channel ∧
          channel.status.isTerminal = true := by
  intro always
  let close : ClosedChannel := ⟨7, "ab:0", "key", 5000, "cd", 700, 0, .fundingCanceled⟩
  let ran := (ChannelJob.record 3 .epoch (.closed close) false).alone (applyAll .empty opened)
  rcases always opened 3 .epoch close false ran.2 rfl [] with ⟨channel, found, closed⟩
  have stays : (ran.2.channelAt? "ab:0").map Channel.status = some .open := by decide +kernel
  have unclosed : channel.status = .open := by
    rw [show ran.2.channelAt? "ab:0" = some channel from found] at stays
    exact Option.some_inj.mp stays
  rw [unclosed] at closed
  cases closed

end ChannelWork

end NodeSteward
