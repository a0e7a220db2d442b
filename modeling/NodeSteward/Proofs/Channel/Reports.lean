import Mathlib.Data.List.Forall2
import NodeSteward.Proofs.Channel.Recording

/-!
# What a series of reports makes of a channel

The first report of a channel fixes its terms.  If it is a close, the channel is stored as closed
and stays so.  Otherwise the channel is open until the first close that an open channel can take,
whatever else is reported before and after; that a funding was cancelled is not such a close.  The
closing transaction is that of the close that took effect, and every report leaves one event.
-/

namespace NodeSteward

/-- An update of the node that came at some instant. -/
structure ChannelReport where
  on : Timestamp
  update : ChannelUpdate
  /-- True when the update was listed rather than streamed. -/
  imported : Bool

namespace ChannelReport

/-- The event that a report is to leave. -/
def event (report : ChannelReport) : Except OutpointError ChannelEvent :=
  ChannelEvent.ofUpdate report.update report.imported report.on

/-- Records reports one after the other; the first failure ends this. -/
def recordAll (patience : Nat) : List ChannelReport → IngestProgram Unit
  | [] => pure ()
  | report :: reports => do
    report.update.record patience report.on report.imported
    recordAll patience reports

end ChannelReport

/-- What a channel keeps of the update that told of it first. -/
structure ChannelTerms where
  shortChannelId : Option ShortChannelId
  remotePubKey : String
  capacity : Int
  isPrivate : Bool
  deriving DecidableEq, Repr

def Channel.terms (channel : Channel) : ChannelTerms where
  shortChannelId := channel.shortChannelId
  remotePubKey := channel.remotePubKey
  capacity := channel.capacity
  isPrivate := channel.isPrivate

namespace ChannelUpdate

/-- True for an update that opens or closes the channel at a point. -/
def concerns (point : String) : ChannelUpdate → Bool
  | .open channel => channel.point = point
  | .closed channel => channel.point = point
  | _ => false

/-- The terms that an update gives.  A close does not tell whether the channel was private. -/
def terms? : ChannelUpdate → Option ChannelTerms
  | .open channel =>
    some ⟨shortIdOf channel.chanId, channel.remotePubKey, channel.capacity, channel.isPrivate⟩
  | .closed channel =>
    some ⟨shortIdOf channel.chanId, channel.remotePubKey, channel.capacity, false⟩
  | _ => none

/-- The close that an update reports, if an open channel can be closed so. -/
def closeOfOpen? : ChannelUpdate → Option ClosedChannel
  | .closed channel => if channel.closeType = .fundingCanceled then none else some channel
  | _ => none

/-- The close that ends a channel of which one update told first, and others later. -/
def decidingClose? (first : ChannelUpdate) (others : List ChannelUpdate) :
    Option ClosedChannel :=
  match first with
  | .closed channel => some channel
  | _ => others.findSome? closeOfOpen?

theorem decidingClose?_append (first : ChannelUpdate) (others : List ChannelUpdate)
    (update : ChannelUpdate) :
    decidingClose? first (others ++ [update]) =
      (decidingClose? first others).or update.closeOfOpen? := by
  have last : [update].findSome? closeOfOpen? = update.closeOfOpen? := by
    rw [List.findSome?_singleton]
  cases first with
  | closed => rfl
  | _ => exact List.findSome?_append.trans (congrArg _ last)

theorem concerns_iff {point : String} {update : ChannelUpdate} (now : Timestamp) :
    update.concerns point = true ↔
      ∃ wanted, update.channel? now = some wanted ∧ wanted.point = point := by
  cases update <;> simp [concerns, channel?, NewChannel.withClosing, NewChannel.ofPoint]

end ChannelUpdate

open ChannelUpdate (decidingClose?)

namespace Channel

/-- The channel was ended by a close, or is open if there was none. -/
structure EndedBy (close? : Option ClosedChannel) (channel : Channel) : Prop where
  status : channel.status = close?.elim .open fun close => close.closeType.status
  closingHash : channel.closingHash = close?.map ClosedChannel.closingHash
  closingHeight : channel.closingHeight = close?.bind ClosedChannel.knownHeight

variable {now : Timestamp} {update : ChannelUpdate} {wanted : NewChannel} {channel : Channel}

theorem terms_hears : (channel.hears now wanted).terms = channel.terms := by
  unfold hears
  split <;> rfl

theorem terms_of_channel? (asks : update.channel? now = some wanted) (id : ChannelId) :
    update.terms? = some (wanted.withId id).terms := by
  cases update with
  | «open» => cases asks; rfl
  | closed => cases asks; rfl
  | _ => cases asks

/-- A channel is inserted as its first update has it. -/
theorem endedBy_of_channel? (asks : update.channel? now = some wanted) (id : ChannelId) :
    (wanted.withId id).EndedBy (decidingClose? update []) := by
  cases update with
  | «open» =>
    cases asks
    exact ⟨rfl, rfl, rfl⟩
  | closed close =>
    rcases ChannelUpdate.wanted_of_closed asks with ⟨_, status, closingHash, closingHeight⟩
    exact ⟨status, closingHash, closingHeight⟩
  | _ => cases asks

theorem EndedBy.isTerminal {close : ClosedChannel} (ended : channel.EndedBy (some close)) :
    channel.status.isTerminal = true := by
  rw [ended.status]
  exact close.closeType.isTerminal_status

/-- An open channel is ended by the first close that it can take. -/
theorem EndedBy.hears {close? : Option ClosedChannel} (ended : channel.EndedBy close?)
    (asks : update.channel? now = some wanted) :
    (channel.hears now wanted).EndedBy (close?.or update.closeOfOpen?) := by
  cases close? with
  | some close =>
    rw [hears_of_isTerminal ended.isTerminal]
    exact ended
  | none =>
    have opened : channel.status = .open := ended.status
    have unknown : channel.closingHash = none := ended.closingHash
    rw [Option.none_or]
    cases update with
    | «open» =>
      cases asks
      rw [hears_of_settledFor (Or.inl opened)]
      exact ended
    | closed close =>
      rcases ChannelUpdate.wanted_of_closed asks with ⟨_, status, closingHash, closingHeight⟩
      have settled_iff := settledFor_close_iff opened close.closeType
      rw [← status] at settled_iff
      by_cases cancelled : close.closeType = .fundingCanceled
      · rw [hears_of_settledFor (settled_iff.mpr cancelled), ChannelUpdate.closeOfOpen?,
          if_pos cancelled]
        exact ended
      · rw [hears_of_not_settledFor (mt settled_iff.mp cancelled), ChannelUpdate.closeOfOpen?,
          if_neg cancelled, unknown]
        exact ⟨status, closingHash, closingHeight⟩
    | _ => cases asks

end Channel

/-! ## The store after all reports -/

/-- What is stored at a channel point after the updates that concerned it. -/
def ChannelStore.ShowsAt (store : ChannelStore) (point : String) : List ChannelUpdate → Prop
  | [] => store.channelAt? point = none
  | first :: others => ∃ channel, store.channelAt? point = some channel ∧
      channel.EndedBy (decidingClose? first others) ∧ first.terms? = some channel.terms

namespace ChannelStore

variable {store after : ChannelStore} {point : String} {updates : List ChannelUpdate}

theorem ShowsAt.hears {now : Timestamp} {update : ChannelUpdate} {imported : Bool}
    (shows : store.ShowsAt point updates) (hears : store.Hears now update imported after) :
    after.ShowsAt point (updates ++ [update].filter (ChannelUpdate.concerns point)) := by
  by_cases concerned : update.concerns point = true
  · rcases (ChannelUpdate.concerns_iff now).mp concerned with ⟨wanted, asks, rfl⟩
    rw [List.filter_cons_of_pos concerned, List.filter_nil]
    cases updates with
    | nil =>
      rcases hears.inserted wanted asks shows with ⟨id, there⟩
      exact ⟨_, there, Channel.endedBy_of_channel? asks id, Channel.terms_of_channel? asks id⟩
    | cons first others =>
      rcases shows with ⟨channel, found, ended, terms⟩
      have later := ended.hears asks
      rw [← ChannelUpdate.decidingClose?_append] at later
      refine ⟨_, hears.advanced wanted channel asks found, later, ?_⟩
      rw [Channel.terms_hears]
      exact terms
  · rw [List.filter_cons_of_neg concerned, List.filter_nil, List.append_nil]
    have unconcerned : after.channelAt? point = store.channelAt? point := by
      apply hears.elsewhere
      intro wanted asks filed
      exact concerned ((ChannelUpdate.concerns_iff now).mpr ⟨wanted, asks, filed⟩)
    cases updates with
    | nil => exact unconcerned.trans shows
    | cons first others =>
      rcases shows with ⟨channel, found, shown⟩
      exact ⟨channel, unconcerned.trans found, shown⟩

end ChannelStore

namespace ChannelReport

variable {patience : Nat} {listening : Bool} {reports : List ChannelReport}
  {store after : ChannelStore} {facts told : List Fact} {point : String}

theorem shows_of_recordAll (sound : store.Sound) (updates : List ChannelUpdate)
    (shows : store.ShowsAt point updates)
    (recorded : (recordAll patience reports).run.run
      (IngestCall.handler ChannelStore.handler listening) (store, facts) = (.ok (), after, told)) :
    after.ShowsAt point
        (updates ++ (reports.map ChannelReport.update).filter (ChannelUpdate.concerns point)) ∧
      ∃ events, after.events = store.events ++ events ∧
        List.Forall₂ (fun report event => report.event = .ok event) reports events := by
  induction reports generalizing store facts updates with
  | nil =>
    cases recorded
    rw [List.map_nil, List.filter_nil, List.append_nil]
    exact ⟨shows, [], (List.append_nil _).symm, .nil⟩
  | cons report reports ih =>
    rcases Program.exists_of_run_exceptBind recorded with ⟨_, ⟨middle, heard⟩, one, others⟩
    have alone := ChannelJob.alone_of_record one
    have hears := ChannelJob.hears_of_alone sound alone
    have soundNow : middle.Sound := by
      have kept := ChannelJob.sound_alone sound
        (.record patience report.on report.update report.imported)
      rw [alone] at kept
      exact kept
    rcases ih soundNow _ (shows.hears hears) others with ⟨showsAll, events, appended, written⟩
    rcases hears.noted with ⟨event, shown, noted⟩
    constructor
    · rw [List.append_assoc, ← List.filter_append] at showsAll
      exact showsAll
    · refine ⟨event :: events, ?_, .cons shown written⟩
      rw [appended, noted, List.append_assoc]
      rfl

/-- Whatever has been reported of a channel that was not known before, its terms are those of the
first update; it has the status and the closing transaction of the close that decides, and is open
if there is none.  Every report has left its event, in the order of the reports. -/
theorem recorded_channel_exact (deeds : List ChannelDeed) (patience : Nat) (listening : Bool)
    (reports : List ChannelReport) (facts told : List Fact) (after : ChannelStore) (point : String)
    (unknown : (ChannelDeed.applyAll .empty deeds).channelAt? point = none)
    (recorded : (recordAll patience reports).run.run
      (IngestCall.handler ChannelStore.handler listening)
        (ChannelDeed.applyAll .empty deeds, facts) = (.ok (), after, told)) :
    (∀ first others,
      (reports.map ChannelReport.update).filter (ChannelUpdate.concerns point) = first :: others →
        ∃ channel, after.channelAt? point = some channel ∧
          channel.EndedBy (decidingClose? first others) ∧ first.terms? = some channel.terms) ∧
      ∃ events, after.events = (ChannelDeed.applyAll .empty deeds).events ++ events ∧
        List.Forall₂ (fun report event => report.event = .ok event) reports events := by
  rcases shows_of_recordAll (.applyAll deeds) [] unknown recorded with ⟨shows, written⟩
  refine ⟨fun first others concerned => ?_, written⟩
  rw [List.nil_append, concerned] at shows
  exact shows

/-- Reports of a channel, and one of another channel, in a confusing order. -/
def confusing : List ChannelReport :=
  [⟨.epoch, .open ⟨7, "ab:0", "key", 5000, true, true, false⟩, false⟩,
    ⟨.epoch, .closedAt "ab:0" "aa" 600 .fundingCanceled, false⟩,
    ⟨.epoch, .closedAt "cd:1" "bb" 610 .breach, false⟩,
    ⟨.epoch, .openAt "ab:0", true⟩,
    ⟨.epoch, .closedAt "ab:0" "ef" 0 .remoteForce, false⟩,
    ⟨.epoch, .closedAt "ab:0" "dd" 700 .cooperative, true⟩,
    ⟨.epoch, .openAt "ab:0", false⟩]

/-- The channel keeps the terms of the first report and is closed by the second of its closes. -/
theorem recorded_channel_exact_confusing :
    let ran := (recordAll 3 confusing).run.run (IngestCall.handler ChannelStore.handler true)
      (.empty, [])
    ChannelStore.empty.channelAt? "ab:0" = none ∧ ran.1 = .ok () ∧
      (∃ channel, ran.2.1.channelAt? "ab:0" = some channel ∧
        channel.status = .remoteForceClosed ∧ channel.closingHash = some "ef" ∧
        channel.closingHeight = none ∧
        channel.terms = ⟨some (.ofPacked 7), "key", 5000, true⟩) ∧
      ran.2.1.events.length = 7 := by
  intro ran
  have came : ran.1 = .ok () := by decide +kernel
  have account := recorded_channel_exact [] 3 true confusing [] ran.2.2 ran.2.1 "ab:0" rfl
    (Prod.ext came rfl)
  rcases account with ⟨shown, events, appended, written⟩
  rcases shown _ _ rfl with ⟨channel, found, ended, terms⟩
  refine ⟨rfl, came, ⟨channel, found, ended.status, ended.closingHash, ended.closingHeight, ?_⟩, ?_⟩
  · exact (Option.some_inj.mp terms).symm
  · rw [appended]
    exact written.length_eq.symm

end ChannelReport

end NodeSteward
