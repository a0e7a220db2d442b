import Mathlib.Data.List.Forall2
import NodeSteward.Proofs.Channel.Closing
import NodeSteward.Proofs.Passages

/-!
# Taking a listing over stores each of its channel points once

An import records the entries of a listing one after the other and passes over every channel point
that it has seen: those that had an event of the listing's kind before, and those of the entries
that it has recorded itself.  As long as the store does not fail, each recording leaves one event
and a channel, and what was there stays.  Afterwards every listed channel point has its event, so
that the same listing holds nothing new.
-/

namespace NodeSteward

/-- The store has answered with a value. -/
def Exchange.succeeds {σ : Type} (exchange : Exchange channelCalls σ) : Bool :=
  exchange.answer.isOk

/-- There is an event of a kind at a channel point. -/
def ChannelStore.hasEvent (store : ChannelStore) (type : ChannelEventType) (point : String) :
    Bool :=
  store.events.any fun event => event.type = type && event.point = point

/-- The entries of a listing that are new to a store: of each channel point without an event of
the listing's kind the first one, in the order of the listing. -/
def Listing.news (listing : Listing) (store : ChannelStore) : List (String × ChannelUpdate) :=
  (listing.entries.filter fun entry => !store.hasEvent listing.kind.eventType entry.1).eraseDupsBy
    fun entry earlier => entry.1 = earlier.1

/-- The event is the one with which an entry of a listing is taken over. -/
structure ListingKind.Imports (kind : ListingKind) (now : Timestamp)
    (entry : String × ChannelUpdate) (event : ChannelEvent) : Prop where
  point : event.point = entry.1
  type : event.type = kind.eventType
  imported : event.imported = true
  reported : ChannelEvent.ofUpdate entry.2 true now = .ok event

namespace ChannelStore

variable {before after : ChannelStore} {type : ChannelEventType} {point : String}

theorem mem_existingPoints {points : List String} :
    point ∈ before.existingPoints type points ↔
      point ∈ points ∧ before.hasEvent type point = true := by
  simp only [existingPoints, hasEvent, List.mem_eraseDups, List.mem_map, List.mem_filter,
    List.any_eq_true, Bool.and_eq_true, decide_eq_true_eq]
  constructor
  · rintro ⟨event, ⟨stored, sameType, listed⟩, rfl⟩
    exact ⟨listed, event, stored, sameType, rfl⟩
  · rintro ⟨listed, event, stored, sameType, rfl⟩
    exact ⟨event, ⟨stored, sameType, listed⟩, rfl⟩

theorem hasEvent_of_mem {event : ChannelEvent} (stored : event ∈ before.events) :
    before.hasEvent event.type event.point = true := by
  rw [hasEvent, List.any_eq_true]
  exact ⟨event, stored, by simp⟩

theorem hasEvent_append {events : List ChannelEvent}
    (appended : after.events = before.events ++ events)
    (held : before.hasEvent type point = true) : after.hasEvent type point = true := by
  rw [hasEvent, appended, List.any_append, Bool.or_eq_true]
  exact Or.inl held

variable {now : Timestamp} {update : ChannelUpdate} {imported : Bool}

/-- A report removes no channel. -/
theorem Hears.stays (heard : before.Hears now update imported after)
    (held : ∃ channel, before.channelAt? point = some channel) :
    ∃ channel, after.channelAt? point = some channel := by
  rcases held with ⟨channel, found⟩
  by_cases asked : ∃ wanted, update.channel? now = some wanted ∧ wanted.point = point
  · rcases asked with ⟨wanted, asks, rfl⟩
    exact ⟨_, heard.advanced wanted channel asks found⟩
  · refine ⟨channel, (heard.elsewhere point ?_).trans found⟩
    intro wanted asks filed
    exact asked ⟨wanted, asks, filed⟩

/-- The channel that a report wants is there afterwards. -/
theorem Hears.filed (heard : before.Hears now update imported after) {wanted : NewChannel}
    (asks : update.channel? now = some wanted) :
    ∃ channel, after.channelAt? wanted.point = some channel := by
  cases found : before.channelAt? wanted.point with
  | none =>
    rcases heard.inserted wanted asks found with ⟨id, there⟩
    exact ⟨_, there⟩
  | some channel => exact ⟨_, heard.advanced wanted channel asks found⟩

end ChannelStore

/-- What every entry of a listing of a kind is like. -/
structure ListingKind.Lists (kind : ListingKind) (entry : String × ChannelUpdate) : Prop where
  point : entry.2.point = .ok entry.1
  type : entry.2.eventType = kind.eventType
  wanted : ∀ now, ∃ wanted, entry.2.channel? now = some wanted ∧ wanted.point = entry.1

namespace Listing

theorem lists_of_mem {listing : Listing} {entry : String × ChannelUpdate}
    (listed : entry ∈ listing.entries) : listing.kind.Lists entry := by
  cases listing with
  | «open» channels =>
    rcases List.mem_map.mp listed with ⟨channel, _, rfl⟩
    exact ⟨rfl, rfl, fun now => ⟨_, rfl, rfl⟩⟩
  | closed channels =>
    rcases List.mem_map.mp listed with ⟨channel, _, rfl⟩
    exact ⟨rfl, rfl, fun now => ⟨_, rfl, rfl⟩⟩

/-- An entry can always be shown, as the event that the import wants. -/
theorem exists_imports {kind : ListingKind} {entry : String × ChannelUpdate}
    (lists : kind.Lists entry) (now : Timestamp) : ∃ event, kind.Imports now entry event := by
  have shown : ∃ event, ChannelEvent.ofUpdate entry.2 true now = .ok event ∧
      event.point = entry.1 ∧ event.type = entry.2.eventType ∧ event.imported = true := by
    rw [ChannelEvent.ofUpdate, lists.point]
    exact ⟨_, rfl, rfl, rfl, rfl⟩
  rcases shown with ⟨event, shown, point, type, imported⟩
  exact ⟨event, point, type.trans lists.type, imported, shown⟩

end Listing

/-! ## One recording -/

namespace ChannelJob

variable {store : ChannelStore} {now : Timestamp} {wanted : NewChannel} {event : ChannelEvent}
  {patience : Nat} {stored : Channel} {update : ChannelUpdate} {imported : Bool}

theorem inserting_succeeds
    (succeeds : ∀ passage ∈ (inserting event).passages ChannelStore.handler store,
      passage.succeeds = true) :
    ((inserting event).run ChannelStore.handler store).1 = .recorded (.ok ()) := by
  have inserted := List.forall_mem_cons.mp succeeds |>.1
  rw [Exchange.succeeds, Passage.through] at inserted
  rw [inserting, Program.run, Program.run]
  cases answered : (ChannelStore.handler (.insertEvent event) store).1 with
  | ok value => rfl
  | error cause =>
    rw [answered] at inserted
    cases inserted

theorem advancing_succeeds (patient : 0 < patience)
    (found : store.channelAt? wanted.point = some stored)
    (succeeds : ∀ passage ∈ (advancing now wanted event patience stored).passages
      ChannelStore.handler store, passage.succeeds = true) :
    ((advancing now wanted event patience stored).run ChannelStore.handler store).1 =
      .recorded (.ok ()) := by
  by_cases settled : stored.SettledFor wanted.status
  · rw [advancing_of_settledFor settled] at succeeds ⊢
    exact inserting_succeeds succeeds
  · rcases Nat.exists_eq_succ_of_ne_zero (Nat.ne_of_gt patient) with ⟨rest, rfl⟩
    have filed := (ChannelStore.point_of_channelAt? found).2
    rw [Nat.succ_eq_add_one, advancing_of_not_settledFor filed settled] at succeeds ⊢
    rw [Program.passages, List.forall_mem_cons, Exchange.succeeds, Passage.through] at succeeds
    rcases succeeds with ⟨changes, later⟩
    rw [Program.run]
    cases answered : (ChannelStore.handler
        (.changeStatus now wanted.point (wantedChange wanted stored)) store).1 with
    | error cause =>
      rw [answered] at changes
      cases changes
    | ok changed =>
      rw [answered] at later
      cases changed with
      | false =>
        -- nobody else has changed the status since it was read
        rcases ChannelStore.changeStatus_of_refused answered with ⟨_, other⟩
        exact absurd rfl (other stored found)
      | true => exact inserting_succeeds later

/-- A recording alone ends well if the store does not fail. -/
theorem exists_recorded (sound : store.Sound) (patient : 0 < patience)
    (shown : ChannelEvent.ofUpdate update imported now = .ok event)
    (succeeds : ∀ passage ∈ (record patience now update imported).begin.passages
      ChannelStore.handler store, passage.succeeds = true) :
    ∃ after, (record patience now update imported).alone store = (.recorded (.ok ()), after) := by
  suffices ended : ((record patience now update imported).alone store).1 = .recorded (.ok ()) from
    ⟨_, Prod.ext ended rfl⟩
  rw [alone]
  cases asks : update.channel? now with
  | none =>
    rw [begin_record_of_none shown asks] at succeeds ⊢
    exact inserting_succeeds succeeds
  | some wanted =>
    rw [begin_record_of_some shown asks] at succeeds ⊢
    rw [Program.passages, List.forall_mem_cons, Exchange.succeeds, Passage.through] at succeeds
    rcases succeeds with ⟨ensures, later⟩
    rw [Program.run]
    cases answered : (ChannelStore.handler (.ensureChannel wanted) store).1 with
    | error cause =>
      rw [answered] at ensures
      cases ensures
    | ok stored =>
      rw [answered] at later
      exact advancing_succeeds patient (ChannelStore.channelAt?_of_ensureChannel sound answered)
        later

/-- What a recording asks of the store is all that its job does. -/
theorem passages_begin_record :
    (record patience now update imported).begin.passages ChannelStore.handler store =
      (IngestCall.storePart (update.record patience now imported).run).passages
        ChannelStore.handler store :=
  Program.passages_map _ _ _

theorem run_of_alone_record {result : Except IngestError Unit} {after : ChannelStore}
    (recorded : (record patience now update imported).alone store = (.recorded result, after)) :
    (IngestCall.storePart (update.record patience now imported).run).run ChannelStore.handler
      store = (result, after) := by
  rw [alone, begin, Program.run_bind, Prod.ext_iff] at recorded
  exact Prod.ext (ChannelOutcome.recorded.inj recorded.1) recorded.2

end ChannelJob

namespace Listing

variable {patience : Nat} {now : Timestamp} {seen : List String} {point : String}
  {update : ChannelUpdate} {entries : List (String × ChannelUpdate)} {store : ChannelStore}

/-- What an import asks of the store for some entries. -/
def importing (patience : Nat) (now : Timestamp) (seen : List String)
    (entries : List (String × ChannelUpdate)) :
    Program channelCalls (Except IngestError Nat) :=
  IngestCall.storePart (importEntries patience now seen entries).run

theorem importing_of_mem (known : point ∈ seen) :
    importing patience now seen ((point, update) :: entries) =
      importing patience now seen entries := by
  rw [importing, importEntries, if_pos known, importing]

/-- An entry that is new is recorded, and the others follow if that went well. -/
theorem importing_of_not_mem (new : point ∉ seen) :
    importing patience now seen ((point, update) :: entries) =
      IngestCall.storePart (update.record patience now true).run >>= fun
        | .error cause => pure (.error cause)
        | .ok _ => importing patience now (point :: seen) entries >>= fun others =>
            pure (others.map (· + 1)) := by
  rw [importing, importEntries, if_neg new, ExceptT.run_bind, IngestCall.storePart_bind]
  refine bind_congr fun recorded => ?_
  cases recorded with
  | error cause => rfl
  | ok _ =>
    dsimp only
    rw [ExceptT.run_bind, IngestCall.storePart_bind, importing]
    refine bind_congr fun others => ?_
    cases others <;> rfl

theorem importing_of_all_seen (known : ∀ entry ∈ entries, entry.1 ∈ seen) :
    importing patience now seen entries = pure (.ok 0) := by
  induction entries with
  | nil => rfl
  | cons entry entries ih =>
    rcases List.forall_mem_cons.mp known with ⟨first, others⟩
    exact (importing_of_mem first).trans (ih others)

/-- The first entry of each channel point that has not been seen. -/
def unseen (seen : List String) (entries : List (String × ChannelUpdate)) :
    List (String × ChannelUpdate) :=
  (entries.filter fun entry => entry.1 ∉ seen).eraseDupsBy fun entry earlier =>
    entry.1 = earlier.1

theorem unseen_of_mem (known : point ∈ seen) :
    unseen seen ((point, update) :: entries) = unseen seen entries := by
  rw [unseen, List.filter_cons_of_neg (by simpa using known), unseen]

theorem unseen_of_not_mem (new : point ∉ seen) :
    unseen seen ((point, update) :: entries) =
      (point, update) :: unseen (point :: seen) entries := by
  rw [unseen, List.filter_cons_of_pos (by simpa using new), List.eraseDupsBy_cons,
    List.filter_filter, unseen]
  congr 2
  refine List.filter_congr fun entry _ => ?_
  simp [not_or]

theorem mem_unseen_or_mem (seen : List String) {entry : String × ChannelUpdate}
    (listed : entry ∈ entries) :
    entry.1 ∈ seen ∨ ∃ first ∈ unseen seen entries, first.1 = entry.1 := by
  induction entries generalizing seen with
  | nil => exact absurd listed List.not_mem_nil
  | cons first entries ih =>
    rcases first with ⟨point, update⟩
    by_cases known : point ∈ seen
    · rw [unseen_of_mem known]
      rcases List.mem_cons.mp listed with rfl | later
      · exact Or.inl known
      · exact ih seen later
    · rw [unseen_of_not_mem known]
      rcases List.mem_cons.mp listed with rfl | later
      · exact Or.inr ⟨_, List.mem_cons_self, rfl⟩
      · rcases ih (point :: seen) later with held | ⟨other, member, same⟩
        · rcases List.mem_cons.mp held with same | held
          · exact Or.inr ⟨_, List.mem_cons_self, same.symm⟩
          · exact Or.inl held
        · exact Or.inr ⟨other, List.mem_cons_of_mem _ member, same⟩

/-- What an import of some entries does to the store, and what it yields. -/
structure Imported (kind : ListingKind) (now : Timestamp) (new : List (String × ChannelUpdate))
    (before : ChannelStore) (result : Except IngestError Nat) (after : ChannelStore)
    (events : List ChannelEvent) : Prop where
  result : result = .ok events.length
  appended : after.events = before.events ++ events
  imports : List.Forall₂ (kind.Imports now) new events
  filed : ∀ entry ∈ new, ∃ channel, after.channelAt? entry.1 = some channel
  stays : ∀ point, (∃ channel, before.channelAt? point = some channel) →
    ∃ channel, after.channelAt? point = some channel

/-- An entry whose recording was heard, and then the others. -/
theorem Imported.cons {kind : ListingKind} {entry : String × ChannelUpdate}
    {new : List (String × ChannelUpdate)} {middle after : ChannelStore}
    {others : Except IngestError Nat} {event : ChannelEvent} {events : List ChannelEvent}
    (lists : kind.Lists entry) (imports : kind.Imports now entry event)
    (heard : store.Hears now entry.2 true middle)
    (rest : Imported kind now new middle others after events) :
    Imported kind now (entry :: new) store (others.map (· + 1)) after (event :: events) where
  result := by
    rw [rest.result]
    rfl
  appended := by
    rcases heard.noted with ⟨noted, again, appended⟩
    cases imports.reported.symm.trans again
    rw [rest.appended, appended, List.append_assoc, List.singleton_append]
  imports := .cons imports rest.imports
  filed := by
    refine List.forall_mem_cons.mpr ⟨?_, rest.filed⟩
    rcases lists.wanted now with ⟨wanted, asks, filed⟩
    rw [← filed]
    exact rest.stays wanted.point (heard.filed asks)
  stays point held := rest.stays point (heard.stays held)

/-- As long as the store does not fail, every entry that is new leaves its event. -/
theorem exists_imported {kind : ListingKind} (sound : store.Sound) (patient : 0 < patience)
    (lists : ∀ entry ∈ entries, kind.Lists entry)
    (succeeds : ∀ passage ∈ (importing patience now seen entries).passages ChannelStore.handler
      store, passage.succeeds = true) :
    ∃ events,
      Imported kind now (unseen seen entries) store
        ((importing patience now seen entries).run ChannelStore.handler store).1
        ((importing patience now seen entries).run ChannelStore.handler store).2 events := by
  induction entries generalizing seen store with
  | nil => exact ⟨[], rfl, (List.append_nil _).symm, .nil, nofun, fun _ held => held⟩
  | cons entry entries ih =>
    rcases entry with ⟨point, update⟩
    rcases List.forall_mem_cons.mp lists with ⟨listed, others⟩
    by_cases known : point ∈ seen
    · rw [importing_of_mem known] at succeeds ⊢
      rw [unseen_of_mem known]
      exact ih sound others succeeds
    · rw [importing_of_not_mem known, Program.passages_bind, List.forall_mem_append] at succeeds
      rw [importing_of_not_mem known, unseen_of_not_mem known]
      rcases succeeds with ⟨first, later⟩
      rcases exists_imports listed now with ⟨event, imports⟩
      rw [← ChannelJob.passages_begin_record] at first
      rcases ChannelJob.exists_recorded sound patient imports.reported first with
        ⟨middle, recorded⟩
      have soundNow := ChannelJob.sound_alone sound (.record patience now update true)
      rw [recorded] at soundNow
      have ran := ChannelJob.run_of_alone_record recorded
      rw [ran] at later
      dsimp only at later
      rw [Program.passages_map] at later
      rcases ih soundNow others later with ⟨events, rest⟩
      rw [Program.run_bind, ran]
      dsimp only
      rw [Program.run_bind]
      exact ⟨event :: events, rest.cons listed imports (ChannelJob.hears_of_alone sound recorded)⟩

/-! ## A whole listing -/

/-- The import of a listing begins by asking for the channel points that have an event. -/
theorem alone_takeOver_eq (patience : Nat) (now : Timestamp) (listing : Listing)
    (store : ChannelStore) :
    (ChannelJob.takeOver patience now (.ok listing)).alone store =
      (.takenOver ((importing patience now (store.existingPoints listing.kind.eventType
          (listing.entries.map Prod.fst)) listing.entries).run ChannelStore.handler store).1,
        ((importing patience now (store.existingPoints listing.kind.eventType
          (listing.entries.map Prod.fst)) listing.entries).run ChannelStore.handler store).2) := by
  rw [ChannelJob.alone, ChannelJob.begin, Program.run_bind]
  rfl

theorem passages_begin_takeOver (patience : Nat) (now : Timestamp) (listing : Listing)
    (store : ChannelStore) :
    (ChannelJob.takeOver patience now (.ok listing)).begin.passages ChannelStore.handler store =
      .through ChannelStore.handler
          (.existingPoints listing.kind.eventType (listing.entries.map Prod.fst)) store ::
        (importing patience now (store.existingPoints listing.kind.eventType
          (listing.entries.map Prod.fst)) listing.entries).passages ChannelStore.handler store := by
  rw [ChannelJob.begin, Program.passages_map]
  rfl

theorem unseen_existingPoints (listing : Listing) (store : ChannelStore) :
    unseen (store.existingPoints listing.kind.eventType (listing.entries.map Prod.fst))
      listing.entries = listing.news store := by
  rw [unseen, news]
  congr 1
  refine List.filter_congr fun entry listed => ?_
  have named : entry.1 ∈ listing.entries.map Prod.fst := List.mem_map_of_mem listed
  simp [ChannelStore.mem_existingPoints, named]

theorem exists_imports_of_mem {kind : ListingKind} {new : List (String × ChannelUpdate)}
    {events : List ChannelEvent} (imports : List.Forall₂ (kind.Imports now) new events)
    {entry : String × ChannelUpdate} (member : entry ∈ new) :
    ∃ event ∈ events, kind.Imports now entry event := by
  induction imports with
  | nil => exact absurd member List.not_mem_nil
  | @cons _ event _ _ first _ ih =>
    rcases List.mem_cons.mp member with rfl | later
    · exact ⟨event, List.mem_cons_self, first⟩
    · rcases ih later with ⟨other, made, imports⟩
      exact ⟨other, List.mem_cons_of_mem _ made, imports⟩

/-- Every listed channel point has an event after the import. -/
theorem Imported.hasEvent {listing : Listing} {after : ChannelStore}
    {result : Except IngestError Nat} {events : List ChannelEvent}
    (imported : Imported listing.kind now
      (unseen (store.existingPoints listing.kind.eventType (listing.entries.map Prod.fst))
        listing.entries) store result after events) :
    ∀ entry ∈ listing.entries, after.hasEvent listing.kind.eventType entry.1 = true := by
  intro entry listed
  rcases mem_unseen_or_mem (store.existingPoints listing.kind.eventType
    (listing.entries.map Prod.fst)) listed with held | ⟨first, new, same⟩
  · have known := (ChannelStore.mem_existingPoints.mp held).2
    exact ChannelStore.hasEvent_append imported.appended known
  · rcases exists_imports_of_mem imported.imports new with ⟨event, made, imports⟩
    have stored : event ∈ after.events := by
      rw [imported.appended]
      exact List.mem_append_right _ made
    have there := ChannelStore.hasEvent_of_mem stored
    rw [imports.type, imports.point, same] at there
    exact there

/-- Nothing is left to import where every listed channel point has its event. -/
theorem alone_takeOver_of_hasEvent {listing : Listing}
    (known : ∀ entry ∈ listing.entries, store.hasEvent listing.kind.eventType entry.1 = true)
    (patience : Nat) (now : Timestamp) :
    (ChannelJob.takeOver patience now (.ok listing)).alone store = (.takenOver (.ok 0), store) := by
  have seen : ∀ entry ∈ listing.entries, entry.1 ∈ store.existingPoints listing.kind.eventType
      (listing.entries.map Prod.fst) := by
    intro entry listed
    exact ChannelStore.mem_existingPoints.mpr ⟨List.mem_map_of_mem listed, known entry listed⟩
  rw [alone_takeOver_eq, importing_of_all_seen seen]
  rfl

/-- An import appends one event for each listed channel point that had none of the listing's kind,
in the order in which the points are first listed, and yields how many these are, if only the store
never fails.  All of them have a channel then, and to import the same listing again changes
nothing. -/
theorem import_stores_once (deeds : List ChannelDeed) (patience : Nat) (now : Timestamp)
    (listing : Listing) (patient : 0 < patience)
    (succeeds : ∀ passage ∈ (ChannelJob.takeOver patience now (.ok listing)).begin.passages
      ChannelStore.handler (ChannelDeed.applyAll .empty deeds), passage.succeeds = true) :
    ∃ events after,
      (ChannelJob.takeOver patience now (.ok listing)).alone (ChannelDeed.applyAll .empty deeds) =
        (.takenOver (.ok events.length), after) ∧
      after.events = (ChannelDeed.applyAll .empty deeds).events ++ events ∧
      List.Forall₂ (listing.kind.Imports now) (listing.news (ChannelDeed.applyAll .empty deeds))
        events ∧
      (∀ entry ∈ listing.news (ChannelDeed.applyAll .empty deeds),
        ∃ channel, after.channelAt? entry.1 = some channel) ∧
      ∀ patience later, (ChannelJob.takeOver patience later (.ok listing)).alone after =
        (.takenOver (.ok 0), after) := by
  have sound := ChannelStore.Sound.applyAll deeds
  generalize ChannelDeed.applyAll .empty deeds = store at sound succeeds ⊢
  rw [passages_begin_takeOver, List.forall_mem_cons] at succeeds
  rcases exists_imported sound patient (fun _ => lists_of_mem) succeeds.2 with ⟨events, imported⟩
  refine ⟨events, _, (alone_takeOver_eq patience now listing store).trans ?_, imported.appended, ?_,
    ?_, alone_takeOver_of_hasEvent imported.hasEvent⟩
  · rw [imported.result]
  · rw [← unseen_existingPoints]
    exact imported.imports
  · rw [← unseen_existingPoints]
    exact imported.filed

/-- The channel at "ab:0" was seen to open, and the listing names "cd:1" twice. -/
theorem import_stores_once_repeated :
    let seenLive : List ChannelDeed :=
      [.call (.insertEvent ⟨.epoch, .open, false, none, "ab:0", none, .null⟩)]
    let listing : Listing := .open
      [⟨8, "cd:1", "key", 70, false, true, true⟩, ⟨7, "ab:0", "key", 50, false, true, true⟩,
        ⟨8, "cd:1", "key", 90, false, true, true⟩, ⟨0, "ef:0", "key", 90, true, true, true⟩]
    let imported := (ChannelJob.takeOver 1 .epoch (.ok listing)).alone
      (ChannelDeed.applyAll .empty seenLive)
    imported.1 = .takenOver (.ok 2) ∧ imported.2.events.length = 3 ∧
      (ChannelJob.takeOver 1 .epoch (.ok listing)).alone imported.2 =
        (.takenOver (.ok 0), imported.2) := by
  intro seenLive listing imported
  have succeeds : ((ChannelJob.takeOver 1 .epoch (.ok listing)).begin.passages ChannelStore.handler
      (ChannelDeed.applyAll .empty seenLive)).all (fun passage => passage.succeeds) = true := by
    decide +kernel
  rcases import_stores_once seenLive 1 .epoch listing (by decide) (List.all_eq_true.mp succeeds)
    with ⟨events, after, ran, appended, imports, _, again⟩
  have two : events.length = 2 := by
    rw [← imports.length_eq]
    decide +kernel
  have led : imported = (.takenOver (.ok 2), after) := by rw [← two, ← ran]
  rw [led]
  refine ⟨rfl, ?_, again 1 .epoch⟩
  rw [appended, List.length_append, two]
  rfl

end Listing

end NodeSteward
