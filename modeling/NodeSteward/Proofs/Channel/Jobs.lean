import NodeSteward.Channel.Listing
import NodeSteward.Channel.Reconciliation
import NodeSteward.Proofs.Channel.Life
import NodeSteward.Proofs.Crew

/-!
# Work on the channels at the same time

Any number of jobs work on one channel store: they record updates, take listings over and sweep.
A turn of a job is one call to the store.  What else a job asks for is answered within its turns:
nothing comes back from telling a fact, and the answers of the verification service and the
cancellation of pauses are taken as they come, whatever they are.

A job that takes in what the node reports only makes calls that follow the order of the statuses,
since it has read the status from which it starts a change.  A sweep never changes a status, and it
confirms a closing transaction only where it has read one.  As closing transactions are never
replaced, that reading remains right however late the sweep makes use of it.
-/

namespace NodeSteward

/-- What is answered to a sweep from elsewhere than the store, by the number of its questions
before. -/
structure Outside where
  details : Nat → String → Except VerificationError TransactionDetails
  shortChannelId : Nat → String → UInt32 → Except VerificationError (Option ShortChannelId)
  goesOn : Nat → Bool

/-- The calls to the store that a recording makes. -/
def IngestCall.storePart {α : Type} : Program ingestCalls α → Program channelCalls α
  | .done result => .done result
  | .call (.store request) next =>
    .call (I := channelCalls) request fun answer => storePart (next answer)
  | .call (.publish _) next => storePart (next ())

/-- The calls to the store that a sweep makes after a number of questions. -/
def SweepCall.storePart {α : Type} (outside : Outside) :
    Nat → Program sweepCalls α → Program channelCalls α
  | _, .done result => .done result
  | asked, .call (.store request) next =>
    .call (I := channelCalls) request fun answer => storePart outside asked (next answer)
  | asked, .call (.transactionDetails hash) next =>
    storePart outside (asked + 1) (next (outside.details asked hash))
  | asked, .call (.shortChannelId hash output) next =>
    storePart outside (asked + 1) (next (outside.shortChannelId asked hash output))
  | asked, .call .pause next => storePart outside (asked + 1) (next (outside.goesOn asked))

/-- A job on the channels. -/
inductive ChannelJob where
  /-- Record one update. -/
  | record (patience : Nat) (now : Timestamp) (update : ChannelUpdate) (imported : Bool)
  /-- Take over what the node lists. -/
  | takeOver (patience : Nat) (now : Timestamp) (listed : Except RpcError Listing)
  | sweep (outside : Outside) (now : Timestamp) (node : NodeSettings)

/-- A service that has seen every transaction at one height and knows no short identifier. -/
def Outside.confirming (height : Int) : Outside where
  details _ hash := .ok ⟨hash, height, none, none⟩
  shortChannelId _ _ _ := .ok none
  goesOn _ := true

/-- The report that the channel at a channel point is open. -/
def ChannelUpdate.openAt (point : String) : ChannelUpdate :=
  .open ⟨0, point, "", 0, false, true, false⟩

/-- The report that the channel at a channel point was closed by a transaction. -/
def ChannelUpdate.closedAt (point hash : String) (height : UInt32) (type : CloseType) :
    ChannelUpdate :=
  .closed ⟨0, point, "", 0, hash, height, 0, type⟩

/-- What a job comes to. -/
inductive ChannelOutcome where
  | recorded (result : Except IngestError Unit)
  | takenOver (result : Except IngestError Nat)
  | swept (result : Except StoreError SweepSummary)

namespace ChannelJob

def isSweep : ChannelJob → Bool
  | sweep _ _ _ => true
  | _ => false

/-- A job before its first call. -/
def begin : ChannelJob → Program channelCalls ChannelOutcome
  | record patience now update imported => do
    let result ← IngestCall.storePart (update.record patience now imported).run
    return .recorded result
  | takeOver patience now listed => do
    let result ← IngestCall.storePart (Listing.importAll patience now listed).run
    return .takenOver result
  | sweep outside now node => do
    let result ← SweepCall.storePart outside 0 (Sweep.run now node)
    return .swept result

end ChannelJob

/-- A status that a report of the node can ask for: a channel is open, or it was closed. -/
def ChannelStatus.Reported (status : ChannelStatus) : Prop :=
  status = .open ∨ status.isTerminal = true

/-- The closing transaction of a channel is known. -/
def ChannelStore.ClosingKnown (store : ChannelStore) (id : ChannelId) : Prop :=
  ∃ channel ∈ store.channels.rows, channel.id = id ∧ ∃ hash, channel.closingHash = some hash

namespace ChannelCall

/-- The calls with which reports of the node are taken in. -/
def Ingests : ChannelCall → Prop
  | findChannel _ | insertEvent _ | existingPoints _ _ => True
  | ensureChannel wanted => wanted.status.Reported
  | changeStatus _ _ change =>
    change.source.canBecome change.target = true ∧ change.target.Reported
  | _ => False

/-- The calls that a sweep makes. -/
def Sweeps (store : ChannelStore) : ChannelCall → Prop
  | listChannels | setShortChannelId _ _ _ => True
  | recordConfirmation _ id transaction _ => transaction = .closing → store.ClosingKnown id
  | _ => False

variable {store : ChannelStore} {request : ChannelCall}

theorem Ingests.orderly (ingests : request.Ingests) : request.Orderly := by
  cases request with
  | changeStatus => exact ingests.1
  | _ => trivial

theorem Sweeps.orderly (sweeps : request.Sweeps store) : request.Orderly := by
  cases request with
  | changeStatus => exact sweeps.elim
  | _ => trivial

end ChannelCall

/-- The calls of a recording, as far as they go to the store. -/
def IngestCall.Ingests : IngestCall → Prop
  | store request => request.Ingests
  | publish _ => True

/-- The calls of a sweep, as far as they go to the store. -/
def SweepCall.Sweeps (known : ChannelStore) : SweepCall → Prop
  | store request => request.Sweeps known
  | _ => True

theorem IngestCall.only_storePart {α : Type} {program : Program ingestCalls α}
    (only : program.Only IngestCall.Ingests) :
    (IngestCall.storePart program).Only ChannelCall.Ingests := by
  induction only with
  | done result => exact .done result
  | @call request next allowed _ ih =>
    cases request with
    | store request => exact .call allowed ih
    | publish => exact ih ()

theorem SweepCall.only_storePart {α : Type} {known : ChannelStore} (outside : Outside)
    {program : Program sweepCalls α} (only : program.Only (SweepCall.Sweeps known)) (asked : Nat) :
    (SweepCall.storePart outside asked program).Only (ChannelCall.Sweeps known) := by
  induction only generalizing asked with
  | done result => exact .done result
  | @call request next allowed _ ih =>
    cases request with
    | store request => exact .call allowed fun answer => ih answer asked
    | transactionDetails => exact ih _ _
    | shortChannelId => exact ih _ _
    | pause => exact ih _ _

/-! ## What the jobs ask of the store -/

open IngestProgram (ask publish)

theorem IngestProgram.only_ask {Allowed : IngestCall → Prop} {request : ChannelCall}
    (allowed : Allowed (.store request)) : (ask request).run.Only Allowed :=
  .call allowed fun _ => .done _

theorem IngestProgram.only_publish {Allowed : IngestCall → Prop}
    (allowed : ∀ fact, Allowed (.publish fact)) (facts : List Fact) :
    (publish facts).run.Only Allowed := by
  induction facts with
  | nil => exact .done _
  | cons fact facts ih => exact .call (allowed fact) fun _ => ih

theorem CloseType.isTerminal_status (type : CloseType) : type.status.isTerminal = true := by
  cases type <;> rfl

namespace ChannelUpdate

variable {now : Timestamp} {update : ChannelUpdate} {wanted : NewChannel}

/-- The calls with which an update is recorded. -/
inductive Makes (update : ChannelUpdate) (now : Timestamp) : IngestCall → Prop
  | told (fact : Fact) : Makes update now (.publish fact)
  | ensured {wanted : NewChannel} (asks : update.channel? now = some wanted) :
    Makes update now (.store (.ensureChannel wanted))
  | found (point : String) : Makes update now (.store (.findChannel point))
  | changed {wanted : NewChannel} (asks : update.channel? now = some wanted) (stored : Channel)
    (may : stored.status.canBecome wanted.status = true) :
    Makes update now (.store (.changeStatus now stored.point
      { source := stored.status
        target := wanted.status
        closingHash := wanted.closingHash
        closingHeight := wanted.closingHeight }))
  | noted (event : ChannelEvent) : Makes update now (.store (.insertEvent event))

theorem only_advance (asks : update.channel? now = some wanted) (patience : Nat)
    (stored : Channel) :
    (Channel.advance now wanted patience stored).run.Only (update.Makes now) := by
  induction patience generalizing stored with
  | zero =>
    unfold Channel.advance
    split
    · exact .done _
    · exact .done _
  | succ patience ih =>
    unfold Channel.advance
    split
    · exact .done _
    · rename_i unsettled
      have may : stored.status.canBecome wanted.status = true := by
        simpa using (not_or.mp unsettled).2
      refine .exceptBind (IngestProgram.only_ask (.changed asks stored may)) ?_
      intro changed
      split
      · exact .done _
      · refine .exceptBind (IngestProgram.only_ask (.found _)) ?_
        intro found
        split
        · exact .done _
        · exact ih _

theorem only_makes (patience : Nat) (now : Timestamp) (update : ChannelUpdate) (imported : Bool) :
    (update.record patience now imported).run.Only (update.Makes now) := by
  have inserts : ∀ event, (ask (.insertEvent event)).run.Only (update.Makes now) :=
    fun event => IngestProgram.only_ask (.noted event)
  unfold record
  split
  · exact .done _
  · refine .exceptBind (IngestProgram.only_publish .told _) ?_
    intro _
    dsimp only
    split
    · exact inserts _
    · rename_i wanted asks
      refine .exceptBind ?_ fun _ => inserts _
      exact .exceptBind (IngestProgram.only_ask (.ensured asks)) (only_advance asks patience)

theorem reported_of_channel? (asks : update.channel? now = some wanted) :
    wanted.status.Reported := by
  unfold channel? at asks
  split at asks
  · cases asks
    exact Or.inl rfl
  · cases asks
    exact Or.inr (CloseType.isTerminal_status _)
  · cases asks

theorem Makes.ingests {request : IngestCall} (makes : update.Makes now request) :
    request.Ingests := by
  cases makes with
  | ensured asks => exact reported_of_channel? asks
  | changed asks stored may => exact ⟨may, reported_of_channel? asks⟩
  | _ => trivial

theorem only_record (patience : Nat) (now : Timestamp) (update : ChannelUpdate)
    (imported : Bool) :
    (update.record patience now imported).run.Only IngestCall.Ingests :=
  (only_makes patience now update imported).mono fun _ => Makes.ingests

end ChannelUpdate

theorem Listing.only_importEntries (patience : Nat) (now : Timestamp) (seen : List String)
    (entries : List (String × ChannelUpdate)) :
    (importEntries patience now seen entries).run.Only IngestCall.Ingests := by
  induction entries generalizing seen with
  | nil => exact .done _
  | cons entry rest ih =>
    unfold importEntries
    split
    · exact ih seen
    · refine .exceptBind (ChannelUpdate.only_record patience now entry.2 true) ?_
      intro _
      exact .exceptBind (ih _) fun _ => .done _

theorem Listing.only_importAll (patience : Nat) (now : Timestamp)
    (listed : Except RpcError Listing) :
    (importAll patience now listed).run.Only IngestCall.Ingests := by
  cases listed with
  | error error => exact .done _
  | ok listing =>
    refine .exceptBind (IngestProgram.only_ask trivial) ?_
    intro seen
    exact only_importEntries patience now seen listing.entries

namespace Sweep

variable {store : ChannelStore}

theorem only_lookUpDetails (now : Timestamp) (transaction : ChannelTransaction)
    (channel : Channel) (summary : SweepSummary)
    (known : transaction = .closing → store.ClosingKnown channel.id) :
    (lookUpDetails now transaction channel summary).Only (SweepCall.Sweeps store) := by
  refine .bind (.request trivial) ?_
  intro answer
  split
  · exact .done _
  · split
    · refine .bind (.request known) ?_
      intro written
      split
      · exact .done _
      · exact .done _
    · exact .done _

theorem only_lookUpShortId (now : Timestamp) (channel : Channel) (summary : SweepSummary) :
    (lookUpShortId now channel summary).Only (SweepCall.Sweeps store) := by
  refine .bind (.request trivial) ?_
  intro answer
  split
  · exact .done _
  · exact .done _
  · refine .bind (.request trivial) ?_
    intro written
    split
    · exact .done _
    · exact .done _

theorem only_stepIf {needed : Channel → Bool} {step : Channel → SweepSummary → ChannelProgram}
    {channel : Channel} (summary : SweepSummary)
    (only : needed channel = true → (step channel summary).Only (SweepCall.Sweeps store)) :
    (stepIf needed step channel summary).Only (SweepCall.Sweeps store) := by
  unfold stepIf
  split
  · rename_i taken
    refine .bind (only taken) ?_
    intro _
    exact .bind (.request trivial) fun _ => .done _
  · exact .done _

theorem only_sweepChannel (now : Timestamp) {channel : Channel} (summary : SweepSummary)
    (listed : channel ∈ store.channels.rows) :
    (sweepChannel now channel summary).Only (SweepCall.Sweeps store) := by
  have known : channel.needsClosingDetails = true → store.ClosingKnown channel.id := by
    intro needed
    simp only [Channel.needsClosingDetails, Bool.and_eq_true] at needed
    rcases (Option.any_eq_true _ _).mp needed.1.2 with ⟨hash, present, _⟩
    exact ⟨channel, listed, rfl, hash, present⟩
  refine .bind (only_stepIf summary ?_) ?_
  · intro needed
    exact only_lookUpDetails now .closing channel summary fun _ => known needed
  · rintro ⟨goesOn, channel, summary⟩
    dsimp only
    split
    · refine .bind (only_stepIf summary ?_) ?_
      · intro _
        exact only_lookUpDetails now .funding channel summary nofun
      · rintro ⟨goesOn, channel, summary⟩
        dsimp only
        split
        · refine .bind (only_stepIf summary ?_) fun _ => .done _
          intro _
          exact only_lookUpShortId now channel summary
        · exact .done _
    · exact .done _

theorem only_sweepChannels (now : Timestamp) (channels : List Channel) (summary : SweepSummary)
    (listed : ∀ channel ∈ channels, channel ∈ store.channels.rows) :
    (sweepChannels now channels summary).Only (SweepCall.Sweeps store) := by
  induction channels generalizing summary with
  | nil => exact .done _
  | cons channel channels ih =>
    rcases List.forall_mem_cons.mp listed with ⟨first, others⟩
    refine .bind (only_sweepChannel now summary first) ?_
    rintro ⟨goesOn, summary⟩
    dsimp only
    split
    · exact ih summary others
    · exact .done _

end Sweep

/-! ## The discipline of the jobs -/

namespace ChannelJob

/-- The calls of each kind of job. -/
def Makes (store : ChannelStore) (request : ChannelCall) : ChannelJob → Prop
  | sweep _ _ _ => request.Sweeps store
  | _ => request.Ingests

/-- The calls that a job may make in a state. -/
def Allowed (job : ChannelJob) (store : ChannelStore) (request : ChannelCall) : Prop :=
  store.Sound ∧ job.Makes store request

variable {job : ChannelJob} {store before after : ChannelStore} {request : ChannelCall}

theorem Allowed.orderly (allowed : job.Allowed store request) : request.Orderly := by
  cases job with
  | sweep => exact ChannelCall.Sweeps.orderly allowed.2
  | _ => exact ChannelCall.Ingests.orderly allowed.2

/-- A closing transaction that is known remains known. -/
theorem closingKnown_of_forward (forward : before.Forward after) (sound : before.Sound)
    {id : ChannelId} (known : before.ClosingKnown id) : after.ClosingKnown id := by
  rcases known with ⟨channel, member, same, hash, present⟩
  rcases (forward sound).2 channel member with ⟨held, there, sameId, later⟩
  exact ⟨held, there, sameId.trans same, hash, later.closingHash hash present⟩

theorem sweeps_of_forward (forward : before.Forward after) (sound : before.Sound)
    (sweeps : request.Sweeps before) : request.Sweeps after := by
  cases request with
  | recordConfirmation now id transaction confirmation =>
    exact fun closing => closingKnown_of_forward forward sound (sweeps closing)
  | _ => exact sweeps

theorem Allowed.of_forward (forward : before.Forward after)
    (allowed : job.Allowed before request) : job.Allowed after request := by
  rcases allowed with ⟨sound, made⟩
  refine ⟨(forward sound).1, ?_⟩
  cases job with
  | sweep => exact sweeps_of_forward forward sound made
  | _ => exact made

theorem discipline : Crew.Discipline ChannelStore.handler Allowed ChannelStore.Forward where
  refl := .refl
  trans := .trans
  moves allowed := ChannelStore.forward_of_orderly allowed.orderly _

/-- A job that only makes calls of its kind keeps to its role. -/
theorem keeps_of_only {program : Program channelCalls ChannelOutcome} (sound : store.Sound)
    (only : program.Only fun request => job.Makes store request) :
    program.Keeps ChannelStore.handler ChannelStore.Forward job.Allowed store :=
  discipline.keeps_of_only Allowed.of_forward (only.mono fun _ made => ⟨sound, made⟩)

theorem begin_keeps (sound : store.Sound) (job : ChannelJob) :
    job.begin.Keeps ChannelStore.handler ChannelStore.Forward job.Allowed store := by
  cases job with
  | record patience now update imported =>
    refine keeps_of_only sound (.bind ?_ fun _ => .done _)
    exact IngestCall.only_storePart (ChannelUpdate.only_record patience now update imported)
  | takeOver patience now listed =>
    refine keeps_of_only sound (.bind ?_ fun _ => .done _)
    exact IngestCall.only_storePart (Listing.only_importAll patience now listed)
  | sweep outside now node =>
    rw [begin, Sweep.run]
    split
    · refine .call (fun turn moved => ⟨(moved sound).1, trivial⟩) ?_
      intro turn moved
      -- the list that the sweep works on is read here
      refine keeps_of_only (moved sound).1 (.bind ?_ fun _ => .done _)
      refine SweepCall.only_storePart outside (.bind ?_ fun _ => .done _) 0
      exact Sweep.only_sweepChannels now turn.channels.rows _ fun _ listed => listed
    · exact .done _ _

/-- Jobs that are about to work on a store with a history. -/
def started (deeds : List ChannelDeed) (jobs : List ChannelJob) :
    Crew channelCalls ChannelOutcome ChannelStore :=
  ⟨ChannelDeed.applyAll .empty deeds, jobs.map begin⟩

/-- The store after the turns of a schedule. -/
def storeAfter (deeds : List ChannelDeed) (jobs : List ChannelJob) (schedule : List Nat) :
    ChannelStore :=
  ((started deeds jobs).after ChannelStore.handler schedule).state

variable (deeds : List ChannelDeed) (jobs : List ChannelJob) (schedule : List Nat)

theorem fit_started :
    (started deeds jobs).Fit ChannelStore.handler Allowed ChannelStore.Forward jobs :=
  Crew.Fit.start fun job _ => begin_keeps (.applyAll deeds) job

theorem fit_after :
    ((started deeds jobs).after ChannelStore.handler schedule).Fit ChannelStore.handler Allowed
      ChannelStore.Forward jobs :=
  discipline.fit_after (fit_started deeds jobs) schedule

theorem storeAfter_append (later : List Nat) :
    storeAfter deeds jobs (schedule ++ later) =
      (((started deeds jobs).after ChannelStore.handler schedule).after ChannelStore.handler
        later).state := by
  rw [storeAfter, Crew.after_append]

theorem sound_storeAfter : (storeAfter deeds jobs schedule).Sound :=
  (discipline.moves_after (fit_started deeds jobs) schedule (.applyAll deeds)).1

theorem forward_storeAfter (later : List Nat) :
    (storeAfter deeds jobs schedule).Forward (storeAfter deeds jobs (schedule ++ later)) := by
  rw [storeAfter_append]
  exact discipline.moves_after (fit_after deeds jobs schedule) later

/-- A turn leaves the store as it is, or it is an allowed call of the job. -/
theorem storeAfter_turn (worker : Nat) :
    storeAfter deeds jobs (schedule ++ [worker]) = storeAfter deeds jobs schedule ∨
      ∃ job request, jobs[worker]? = some job ∧
        job.Allowed (storeAfter deeds jobs schedule) request ∧
        storeAfter deeds jobs (schedule ++ [worker]) =
          (ChannelStore.handler request (storeAfter deeds jobs schedule)).2 := by
  rw [storeAfter_append]
  exact discipline.turn_allowed (fit_after deeds jobs schedule) worker

end ChannelJob

end NodeSteward
