import NodeSteward.Proofs.Channel.Failing

/-!
# An import that failed can be resumed

The first failure ends an import in the middle of its listing.  What was recorded before stays, and
the entry that failed may have left its channel without its event.  Imported again, the listing is
gone through from its beginning, but the channel points that have their events by then are passed
over: the new import comes to the entry that failed, records it as if nothing had happened, and goes
on from there.

An import looks at the channel points that it has seen only to ask whether one is among them, so
that it does not matter whether a point was seen in the store or on the way.
-/

namespace NodeSteward

open IngestProgram (ask)

namespace Listing

section Running

variable {σ : Type} {handler : Handler ingestCalls σ} {patience : Nat} {now : Timestamp}
  {seen : List String} {point : String} {update : ChannelUpdate}
  {entries : List (String × ChannelUpdate)} {state middle after : σ} {cause : IngestError}

theorem importEntries_of_mem (known : point ∈ seen) :
    importEntries patience now seen ((point, update) :: entries) =
      importEntries patience now seen entries := by
  rw [importEntries, if_pos known]

theorem run_importEntries_of_error (new : point ∉ seen)
    (failed : (update.record patience now true).run.run handler state = (.error cause, after)) :
    (importEntries patience now seen ((point, update) :: entries)).run.run handler state =
      (.error cause, after) := by
  rw [importEntries, if_neg new, ExceptT.run_bind, Program.run_bind, failed]
  rfl

theorem run_importEntries_of_ok (new : point ∉ seen)
    (recorded : (update.record patience now true).run.run handler state = (.ok (), middle)) :
    (importEntries patience now seen ((point, update) :: entries)).run.run handler state =
      (((importEntries patience now (point :: seen) entries).run.run handler middle).1.map (· + 1),
        ((importEntries patience now (point :: seen) entries).run.run handler middle).2) := by
  rw [importEntries, if_neg new, ExceptT.run_bind, Program.run_bind, recorded]
  dsimp only
  rw [ExceptT.run_bind, Program.run_bind]
  rcases (importEntries patience now (point :: seen) entries).run.run handler middle with
    ⟨others, last⟩
  cases others <;> rfl

/-- An import has failed at an entry: it has gone through those before, and the recording of the
entry has failed. -/
structure FailsAt (handler : Handler ingestCalls σ) (patience : Nat) (now : Timestamp)
    (seen : List String) (before : List (String × ChannelUpdate)) (point : String)
    (update : ChannelUpdate) (cause : IngestError) (state : σ) (count : Nat) (middle after : σ) :
    Prop where
  unseen : point ∉ seen
  first : ∀ entry ∈ before, entry.1 ≠ point
  recorded : (importEntries patience now seen before).run.run handler state = (.ok count, middle)
  failed : (update.record patience now true).run.run handler middle = (.error cause, after)

/-- An import that fails has failed at an entry. -/
theorem exists_failsAt
    (failed : (importEntries patience now seen entries).run.run handler state =
      (.error cause, after)) :
    ∃ before point update rest count middle, entries = before ++ (point, update) :: rest ∧
      FailsAt handler patience now seen before point update cause state count middle after := by
  induction entries generalizing seen state with
  | nil => cases failed
  | cons entry entries ih =>
    rcases entry with ⟨point, update⟩
    by_cases known : point ∈ seen
    · rw [importEntries_of_mem known] at failed
      rcases ih failed with ⟨before, other, otherUpdate, rest, count, middle, rfl, fails⟩
      refine ⟨(point, update) :: before, other, otherUpdate, rest, count, middle, rfl,
        fails.unseen, ?_, ?_, fails.failed⟩
      · refine List.forall_mem_cons.mpr ⟨?_, fails.first⟩
        rintro rfl
        exact fails.unseen known
      · rw [importEntries_of_mem known]
        exact fails.recorded
    · rcases recorded : (update.record patience now true).run.run handler state with
        ⟨error | _, middle⟩
      · rw [run_importEntries_of_error known recorded] at failed
        cases failed
        exact ⟨[], point, update, entries, 0, state, rfl, known, nofun, rfl, recorded⟩
      · rcases rest : (importEntries patience now (point :: seen) entries).run.run handler
          middle with ⟨others, last⟩
        rw [run_importEntries_of_ok known recorded, rest] at failed
        cases others with
        | ok others => cases failed
        | error error =>
          cases failed
          rcases ih rest with ⟨before, other, otherUpdate, later, count, left, rfl, fails⟩
          rcases not_or.mp (mt List.mem_cons.mpr fails.unseen) with ⟨different, unseen⟩
          refine ⟨(point, update) :: before, other, otherUpdate, later, count + 1, left, rfl,
            unseen, List.forall_mem_cons.mpr ⟨Ne.symm different, fails.first⟩, ?_, fails.failed⟩
          rw [run_importEntries_of_ok known recorded, fails.recorded]
          rfl

end Running

end Listing

namespace ChannelStore

variable {now : Timestamp} {seen later : List String}
  {before rest entries : List (String × ChannelUpdate)} {point : String} {update : ChannelUpdate}
  {store middle : ChannelStore} {count : Nat}

/-- Of the channel points that were seen it only matters which ones they are. -/
theorem hearEntries_congr (same : ∀ entry ∈ entries, entry.1 ∈ seen ↔ entry.1 ∈ later)
    (store : ChannelStore) :
    hearEntries now seen entries store = hearEntries now later entries store := by
  induction entries generalizing seen later store with
  | nil => rfl
  | cons entry entries ih =>
    rcases entry with ⟨point, update⟩
    rcases List.forall_mem_cons.mp same with ⟨first, others⟩
    by_cases known : point ∈ seen
    · rw [hearEntries_of_mem known, hearEntries_of_mem (first.mp known)]
      exact ih others store
    · have new := mt first.mpr known
      rcases heard : store.hear now update true with ⟨cause | _, after⟩
      · rw [hearEntries_of_error known heard, hearEntries_of_error new heard]
      · have both : ∀ entry ∈ entries, entry.1 ∈ point :: seen ↔ entry.1 ∈ point :: later := by
          intro entry listed
          rw [List.mem_cons, List.mem_cons, others entry listed]
        rw [hearEntries_of_ok known heard, hearEntries_of_ok new heard, ih both]

/-- Entries that were all seen are passed over. -/
theorem hearEntries_append_of_mem (known : ∀ entry ∈ before, entry.1 ∈ seen)
    (store : ChannelStore) :
    hearEntries now seen (before ++ rest) store = hearEntries now seen rest store := by
  induction before with
  | nil => rfl
  | cons entry before ih =>
    rcases List.forall_mem_cons.mp known with ⟨first, others⟩
    exact (hearEntries_of_mem first _ _ _).trans (ih others)

/-- When some entries have been recorded, the others follow with these seen too. -/
theorem hearEntries_append (recorded : hearEntries now seen before store = (.ok count, middle))
    (same : ∀ entry ∈ rest,
      entry.1 ∈ later ↔ entry.1 ∈ seen ∨ ∃ earlier ∈ before, earlier.1 = entry.1) :
    hearEntries now seen (before ++ rest) store =
      ((hearEntries now later rest middle).1.map (· + count),
        (hearEntries now later rest middle).2) := by
  induction before generalizing seen store count with
  | nil =>
    cases recorded
    have unchanged : ∀ result : Except IngestError Nat, result.map (· + 0) = result := by
      rintro (_ | _) <;> rfl
    rw [unchanged]
    refine hearEntries_congr (fun entry listed => ?_) _
    rw [same entry listed]
    simp
  | cons entry before ih =>
    rcases entry with ⟨point, update⟩
    by_cases known : point ∈ seen
    · rw [hearEntries_of_mem known] at recorded
      refine (hearEntries_of_mem known _ _ _).trans (ih recorded fun entry listed => ?_)
      rw [same entry listed, List.exists_mem_cons_iff]
      constructor
      · rintro (held | named | earlier)
        · exact Or.inl held
        · exact Or.inl (named ▸ known)
        · exact Or.inr earlier
      · exact Or.imp_right Or.inr
    · rcases heard : store.hear now update true with ⟨cause | _, after⟩
      · rw [hearEntries_of_error known heard] at recorded
        cases recorded
      · rcases others : hearEntries now (point :: seen) before after with ⟨cause | number, left⟩
        · rw [hearEntries_of_ok known heard, others] at recorded
          cases recorded
        rw [hearEntries_of_ok known heard, others] at recorded
        cases recorded
        have both : ∀ entry ∈ rest, entry.1 ∈ later ↔
            entry.1 ∈ point :: seen ∨ ∃ earlier ∈ before, earlier.1 = entry.1 := by
          intro entry listed
          rw [same entry listed, List.exists_mem_cons_iff, List.mem_cons, or_left_comm, or_assoc,
            eq_comm]
        rw [List.cons_append, hearEntries_of_ok known heard, ih others both]
        refine Prod.ext ?_ rfl
        show ((hearEntries now later rest left).1.map (· + number)).map (· + 1) =
          (hearEntries now later rest left).1.map (· + (number + 1))
        cases (hearEntries now later rest left).1 <;> rfl

end ChannelStore

/-! ## The events of the entries that were recorded -/

namespace ListingKind

variable {kind : ListingKind} {now : Timestamp} {seen : List String}
  {entries : List (String × ChannelUpdate)} {store after : ChannelStore} {count : Nat}

/-- Entries that were recorded have left one event each, unless their points were seen. -/
theorem exists_events (lists : ∀ entry ∈ entries, kind.Lists entry)
    (recorded : ChannelStore.hearEntries now seen entries store = (.ok count, after)) :
    ∃ events, events.length = count ∧ after.events = store.events ++ events ∧
      List.Forall₂ (kind.Imports now) (Listing.unseen seen entries) events := by
  induction entries generalizing seen store count with
  | nil =>
    cases recorded
    exact ⟨[], rfl, (List.append_nil _).symm, .nil⟩
  | cons entry entries ih =>
    rcases entry with ⟨point, update⟩
    rcases List.forall_mem_cons.mp lists with ⟨listed, others⟩
    by_cases known : point ∈ seen
    · rw [ChannelStore.hearEntries_of_mem known] at recorded
      rw [Listing.unseen_of_mem known]
      exact ih others recorded
    · rcases heard : store.hear now update true with ⟨cause | _, middle⟩
      · rw [ChannelStore.hearEntries_of_error known heard] at recorded
        cases recorded
      · rcases rest : ChannelStore.hearEntries now (point :: seen) entries middle with
          ⟨cause | number, left⟩
        · rw [ChannelStore.hearEntries_of_ok known heard, rest] at recorded
          cases recorded
        rw [ChannelStore.hearEntries_of_ok known heard, rest] at recorded
        cases recorded
        rcases ih others rest with ⟨events, length, appended, imports⟩
        have first := ChannelStore.events_hear_of_ok (congrArg Prod.fst heard)
        rw [heard] at first
        rcases first with ⟨event, shown, noted⟩
        rcases Listing.exists_imports listed now with ⟨other, importsFirst⟩
        cases importsFirst.reported.symm.trans shown
        refine ⟨event :: events, congrArg (· + 1) length, ?_, ?_⟩
        · rw [appended, noted, List.append_assoc, List.singleton_append]
        · rw [Listing.unseen_of_not_mem known]
          exact .cons importsFirst imports

/-- Every event of an import is that of an entry. -/
theorem exists_entry_of_mem {new : List (String × ChannelUpdate)} {events : List ChannelEvent}
    (imports : List.Forall₂ (kind.Imports now) new events) {event : ChannelEvent}
    (made : event ∈ events) : ∃ entry ∈ new, kind.Imports now entry event := by
  induction imports with
  | nil => exact absurd made List.not_mem_nil
  | @cons entry _ _ _ first _ ih =>
    rcases List.mem_cons.mp made with rfl | later
    · exact ⟨entry, List.mem_cons_self, first⟩
    · rcases ih later with ⟨other, member, imports⟩
      exact ⟨other, List.mem_cons_of_mem _ member, imports⟩

theorem mem_of_mem_unseen {entry : String × ChannelUpdate}
    (new : entry ∈ Listing.unseen seen entries) : entry ∈ entries := by
  induction entries generalizing seen with
  | nil => exact new
  | cons first entries ih =>
    rcases first with ⟨point, update⟩
    by_cases known : point ∈ seen
    · rw [Listing.unseen_of_mem known] at new
      exact List.mem_cons_of_mem _ (ih new)
    · rw [Listing.unseen_of_not_mem known] at new
      rcases List.mem_cons.mp new with rfl | later
      · exact List.mem_cons_self
      · exact List.mem_cons_of_mem _ (ih later)

end ListingKind

namespace ChannelStore

variable {now : Timestamp} {kind : ListingKind} {store after : ChannelStore}
  {entries : List (String × ChannelUpdate)} {events : List ChannelEvent} {point : String}

/-- The entries of which the store has no event of the listing's kind: of each channel point the
first one.  Of a whole listing these are its news. -/
def unrecorded (store : ChannelStore) (kind : ListingKind)
    (entries : List (String × ChannelUpdate)) : List (String × ChannelUpdate) :=
  (entries.filter fun entry => !store.hasEvent kind.eventType entry.1).eraseDupsBy
    fun entry earlier => entry.1 = earlier.1

theorem unseen_eq_unrecorded {seen : List String}
    (same : ∀ entry ∈ entries, entry.1 ∈ seen ↔ store.hasEvent kind.eventType entry.1 = true) :
    Listing.unseen seen entries = store.unrecorded kind entries := by
  rw [Listing.unseen, unrecorded]
  congr 1
  refine List.filter_congr fun entry listed => ?_
  simp [same entry listed]

/-- After the events of some entries were appended, a channel point has its event if it had one
before or is among the points of the entries. -/
theorem hasEvent_iff_of_imports {seen : List String}
    (appended : after.events = store.events ++ events)
    (imports : List.Forall₂ (kind.Imports now) (Listing.unseen seen entries) events)
    (same : ∀ entry ∈ entries, entry.1 ∈ seen ↔ store.hasEvent kind.eventType entry.1 = true) :
    after.hasEvent kind.eventType point = true ↔
      store.hasEvent kind.eventType point = true ∨ ∃ entry ∈ entries, entry.1 = point := by
  constructor
  · intro held
    rw [hasEvent, appended, List.any_append, Bool.or_eq_true] at held
    refine held.imp id fun among => ?_
    rcases List.any_eq_true.mp among with ⟨event, made, about⟩
    rcases ListingKind.exists_entry_of_mem imports made with ⟨entry, new, imported⟩
    rw [Bool.and_eq_true, decide_eq_true_eq, decide_eq_true_eq] at about
    exact ⟨entry, ListingKind.mem_of_mem_unseen new, imported.point.symm.trans about.2⟩
  · rintro (held | ⟨entry, listed, rfl⟩)
    · exact hasEvent_append appended held
    · rcases Listing.mem_unseen_or_mem seen listed with known | ⟨first, new, named⟩
      · exact hasEvent_append appended ((same entry listed).mp known)
      · rcases Listing.exists_imports_of_mem imports new with ⟨event, made, imported⟩
        have stored : event ∈ after.events := appended ▸ List.mem_append_right _ made
        have there := hasEvent_of_mem stored
        rw [imported.type, imported.point, named] at there
        exact there

end ChannelStore

/-! ## Imports that fail -/

theorem FailsFast.importEntries (patience : Nat) (now : Timestamp) (seen : List String)
    (entries : List (String × ChannelUpdate)) :
    FailsFast (IngestCall.storePart (Listing.importEntries patience now seen entries).run) := by
  induction entries generalizing seen with
  | nil => exact .done _
  | cons entry entries ih =>
    rcases entry with ⟨point, update⟩
    rw [Listing.importEntries]
    split
    · exact ih seen
    · exact (record patience now update true).storeBind fun _ =>
        (ih (point :: seen)).storeBind fun _ => .done _

namespace ChannelStore

variable {now : Timestamp} {seen again : List String}
  {before rest : List (String × ChannelUpdate)} {point : String} {update : ChannelUpdate}
  {store middle : ChannelStore} {count : Nat} {passage : Passage channelCalls ChannelStore}

/-- What an import was cut off at, an import from its beginning comes to. -/
theorem hearEntries_resumed (recorded : hearEntries now seen before store = (.ok count, middle))
    (retains : middle.Retains now update true passage) (new : point ∉ again)
    (same : ∀ entry ∈ before ++ (point, update) :: rest,
      entry.1 ∈ again ↔ entry.1 ∈ seen ∨ ∃ earlier ∈ before, earlier.1 = entry.1) :
    hearEntries now seen (before ++ (point, update) :: rest) store =
      ((hearEntries now again (before ++ (point, update) :: rest) passage.before).1.map (· + count),
        (hearEntries now again (before ++ (point, update) :: rest) passage.before).2) := by
  rcases List.forall_mem_append.mp same with ⟨front, others⟩
  have known : ∀ entry ∈ before, entry.1 ∈ again :=
    fun entry listed => (front entry listed).mpr (Or.inr ⟨entry, listed, rfl⟩)
  have goesOn : hearEntries now again ((point, update) :: rest) passage.before =
      hearEntries now again ((point, update) :: rest) middle := by
    rw [hearEntries, hearEntries, if_neg new, if_neg new, retains.again]
  rw [hearEntries_append recorded others, hearEntries_append_of_mem known, goesOn]

/-- Two stores hold the same channels and the same events, the instants apart. -/
structure SameContent (first second : ChannelStore) : Prop where
  channels : first.channels.rows.map Channel.timeless = second.channels.rows.map Channel.timeless
  events : first.events.map ChannelEvent.timeless = second.events.map ChannelEvent.timeless

theorem SameContent.of_timeless {first second : ChannelStore}
    (same : first.timeless = second.timeless) : first.SameContent second where
  channels := congrArg (fun store => store.channels.rows) same
  events := congrArg ChannelStore.events same

/-- When the entries are recorded does not matter: an import that has been resumed at one instant
has done as one that would have done so at another. -/
theorem sameContent_of_resumed {entries : List (String × ChannelUpdate)} {left : ChannelStore}
    (resumes : hearEntries now seen entries store =
      ((hearEntries now again entries left).1.map (· + count),
        (hearEntries now again entries left).2)) (later other : Timestamp) :
    (hearEntries other seen entries store).1 =
        (hearEntries later again entries left).1.map (· + count) ∧
      (hearEntries later again entries left).2.SameContent
        (hearEntries other seen entries store).2 := by
  have back := hearEntries_alike (rfl : left.timeless = _) later now again entries
  have forth := hearEntries_alike (rfl : store.timeless = _) other now seen entries
  rw [resumes] at forth
  exact ⟨forth.1.trans (congrArg (Except.map (· + count)) back.1.symm),
    .of_timeless (back.2.trans forth.2.symm)⟩

end ChannelStore

namespace Listing

open ChannelStore (faultyHandler hearEntries)

variable {patience : Nat} {now : Timestamp} {listing : Listing}

/-- The listed channel points that an import finds recorded when it begins. -/
def recordedPoints (listing : Listing) (store : ChannelStore) : List String :=
  store.existingPoints listing.kind.eventType (listing.entries.map Prod.fst)

/-- A listed point is found if it has its event. -/
theorem mem_recordedPoints_iff {store : ChannelStore} {entry : String × ChannelUpdate}
    (listed : entry ∈ listing.entries) :
    entry.1 ∈ listing.recordedPoints store ↔
      store.hasEvent listing.kind.eventType entry.1 = true := by
  rw [recordedPoints, ChannelStore.mem_existingPoints]
  exact and_iff_right (List.mem_map_of_mem listed)

/-- What an import comes to on a store that works. -/
theorem exists_told {store : ChannelStore} (works : store.Works) (sound : store.Sound)
    (patient : 0 < patience) (now : Timestamp) (listing : Listing) (listening : Bool)
    (facts : List Fact) :
    ∃ told, (importAll patience now (.ok listing)).run.run
        (IngestCall.handler ChannelStore.handler listening) (store, facts) =
      ((hearEntries now (listing.recordedPoints store) listing.entries store).1,
        (hearEntries now (listing.recordedPoints store) listing.entries store).2, told) := by
  rcases IngestCall.run_storePart ChannelStore.handler listening
    (importAll patience now (.ok listing)).run store facts with ⟨told, split⟩
  rw [← run_importing_eq patient _ _ works sound]
  exact ⟨told, split⟩

/-- Entries that were recorded where calls may fail have come to what they would have come to if the
store worked. -/
theorem hearEntries_of_recorded (state : Faulty ChannelStore × List Fact)
    {middle : Faulty ChannelStore × List Fact} (sound : state.1.store.Sound)
    (patient : 0 < patience) {listening : Bool} {seen : List String}
    {before : List (String × ChannelUpdate)} {count : Nat}
    (recorded : (importEntries patience now seen before).run.run
      (IngestCall.handler faultyHandler listening) state = (.ok count, middle)) :
    hearEntries now seen before state.1.store.working = (.ok count, middle.1.store.working) := by
  rcases IngestCall.run_storePart faultyHandler listening
    (importEntries patience now seen before).run state.1 state.2 with ⟨told, split⟩
  have ran := recorded.symm.trans split
  have came := (FailsFast.importEntries patience now seen before).completes_or_cut state.1
  rw [Prod.mk.injEq] at ran
  rw [← ran.1] at came
  rcases came with ⟨result, after⟩ | ⟨_, _, cut⟩
  · rw [← run_importing_eq patient seen before state.1.store.works_working sound.working]
    refine Prod.ext result.symm ?_
    rw [ran.2]
    exact after.symm
  · rcases cut.result with ⟨_, told⟩
    cases told

theorem sound_of_recorded {store middle : ChannelStore} (works : store.Works)
    (sound : store.Sound) {seen : List String} {before : List (String × ChannelUpdate)}
    {count : Nat}
    (recorded : hearEntries now seen before store = (.ok count, middle)) : middle.Sound := by
  have left : (hearEntries now seen before store).2 = middle := congrArg Prod.snd recorded
  rw [← left, ← run_importing_eq Nat.one_pos seen before works sound]
  exact sound.run _

/-- The look-up at the beginning of an import fails, or it is answered and leaves the store. -/
theorem run_importAll_begins (patience : Nat) (now : Timestamp) (listing : Listing)
    (listening : Bool) (state : Faulty ChannelStore) (facts : List Fact) :
    (∃ after, (importAll patience now (.ok listing)).run.run
        (IngestCall.handler faultyHandler listening) (state, facts) =
          (.error (.store (.injected "existing_channel_points")), after)) ∨
      ∃ plans, (importAll patience now (.ok listing)).run.run
          (IngestCall.handler faultyHandler listening) (state, facts) =
        (importEntries patience now (listing.recordedPoints state.store) listing.entries).run.run
          (IngestCall.handler faultyHandler listening) (⟨state.store, plans⟩, facts) := by
  let request : ChannelCall :=
    .existingPoints listing.kind.eventType (listing.entries.map Prod.fst)
  have asked : (ask request).run.run (IngestCall.handler faultyHandler listening) (state, facts) =
      ((faultyHandler request state).1.mapError .store, (faultyHandler request state).2, facts) :=
    rfl
  have answered : (∃ after, faultyHandler request state =
        (.error (.injected "existing_channel_points"), after)) ∨
      ∃ plans, faultyHandler request state =
        (.ok (listing.recordedPoints state.store), ⟨state.store, plans⟩) := by
    rw [faultyHandler, Faulty.handler]
    dsimp only
    split
    · exact Or.inl ⟨_, rfl⟩
    · exact Or.inr ⟨_, rfl⟩
  rw [importAll, ExceptT.run_bind, Program.run_bind, asked]
  rcases answered with ⟨after, answered⟩ | ⟨plans, answered⟩
  · rw [answered]
    exact Or.inl ⟨_, rfl⟩
  · rw [answered]
    exact Or.inr ⟨plans, rfl⟩

/-- An import that has gone through some entries has left a store from which it can be resumed. -/
structure Resumable (now : Timestamp) (listing : Listing) (store left : ChannelStore)
    (before : List (String × ChannelUpdate)) (events : List ChannelEvent) : Prop where
  sound : left.Sound
  appended : left.events = store.events ++ events
  imports : List.Forall₂ (listing.kind.Imports now) (store.unrecorded listing.kind before) events
  resumes : hearEntries now (listing.recordedPoints store) listing.entries store.working =
    ((hearEntries now (listing.recordedPoints left) listing.entries left.working).1.map
        (· + events.length),
      (hearEntries now (listing.recordedPoints left) listing.entries left.working).2)

/-- A failure of the storage at an entry leaves what was recorded before it. -/
theorem exists_resumable {store : ChannelStore} (sound : store.Sound) (patient : 0 < patience)
    {plans : List FaultPlan} {facts : List Fact} {listening : Bool}
    {point operation details : String} {update : ChannelUpdate}
    {before rest : List (String × ChannelUpdate)} {count : Nat}
    {middle after : Faulty ChannelStore × List Fact}
    (parted : listing.entries = before ++ (point, update) :: rest)
    (fails : FailsAt (IngestCall.handler faultyHandler listening) patience now
      (listing.recordedPoints store) before point update
      (.store (.storageFailure operation details)) (⟨store, plans⟩, facts) count middle after) :
    ∃ events, events.length = count ∧ Resumable now listing store after.1.store before events := by
  have recorded := hearEntries_of_recorded (⟨store, plans⟩, facts) sound patient fails.recorded
  have soundMiddle := sound_of_recorded store.works_working sound.working recorded
  rcases ChannelUpdate.cut_of_storageFailure middle.1 soundMiddle.of_working patient
    fails.failed with ⟨passage, retains, soundBefore, _, cut⟩
  rw [← cut] at soundBefore
  have fore : ∀ entry ∈ before, entry ∈ listing.entries :=
    fun entry listed => parted ▸ List.mem_append_left _ listed
  rcases ListingKind.exists_events (fun entry listed => lists_of_mem (fore entry listed)) recorded
    with ⟨events, length, appended, imports⟩
  have unnoted : after.1.store.events = store.events ++ events :=
    (congrArg ChannelStore.events cut).trans (retains.events.trans appended)
  have known : ∀ entry ∈ before, entry.1 ∈ listing.recordedPoints store ↔
      store.hasEvent listing.kind.eventType entry.1 = true :=
    fun entry listed => mem_recordedPoints_iff (fore entry listed)
  -- what the import finds when it starts again
  have same : ∀ entry ∈ listing.entries, entry.1 ∈ listing.recordedPoints after.1.store ↔
      entry.1 ∈ listing.recordedPoints store ∨ ∃ earlier ∈ before, earlier.1 = entry.1 := by
    intro entry listed
    rw [mem_recordedPoints_iff listed, mem_recordedPoints_iff listed,
      ChannelStore.hasEvent_iff_of_imports unnoted imports known]
  have new : point ∉ listing.recordedPoints after.1.store := by
    have listed : (point, update) ∈ listing.entries :=
      parted ▸ List.mem_append_right _ List.mem_cons_self
    rw [same (point, update) listed, not_or]
    exact ⟨fails.unseen, fun ⟨earlier, before, named⟩ => fails.first earlier before named⟩
  refine ⟨events, length, soundBefore.of_working, unnoted, ?_, ?_⟩
  · rw [← ChannelStore.unseen_eq_unrecorded known]
    exact imports
  · rw [length, cut]
    generalize listing.recordedPoints after.1.store = again at same new
    generalize listing.recordedPoints store = seen at same recorded
    rw [parted] at same ⊢
    exact ChannelStore.hearEntries_resumed recorded retains new same

/-- An import that fails at an entry with a failure of the storage has appended the events of the
entries before that were not recorded yet, and no other.  Imported again once the store works, the
same listing leaves the same channels and the same events as an import that has not failed, the
instants apart, and it records what that import records but for the events that are there already.

Only a failure of the look-up at the beginning is not at an entry. -/
theorem failed_import_resumes (deeds : List ChannelDeed) (plans : List FaultPlan)
    (patience : Nat) (patient : 0 < patience) (now : Timestamp) (listing : Listing)
    (listening : Bool) (facts : List Fact) :
    let store := ChannelDeed.applyAll .empty deeds
    let seen := listing.recordedPoints store
    let faulty := IngestCall.handler faultyHandler listening
    let failed := (importAll patience now (.ok listing)).run.run faulty (⟨store, plans⟩, facts)
    ∀ operation details, failed.1 = .error (.store (.storageFailure operation details)) →
      operation ≠ "existing_channel_points" →
      ∃ before point update rest events,
        listing.entries = before ++ (point, update) :: rest ∧
        (∃ left middle, FailsAt faulty patience now seen before point update
          (.store (.storageFailure operation details)) (⟨store, left⟩, facts) events.length middle
            failed.2) ∧
        failed.2.1.store.events = store.events ++ events ∧
        List.Forall₂ (listing.kind.Imports now) (store.unrecorded listing.kind before) events ∧
        ∀ later other,
          let alone (now : Timestamp) (store : ChannelStore) :=
            (importAll patience now (.ok listing)).run.run
              (IngestCall.handler ChannelStore.handler listening) (store, facts)
          let resumed := alone later failed.2.1.store.working
          let whole := alone other store.working
          whole.1 = resumed.1.map (· + events.length) ∧ resumed.2.1.SameContent whole.2.1 := by
  intro store seen faulty failed operation details ends atEntry
  have sound : store.Sound := .applyAll deeds
  rcases run_importAll_begins patience now listing listening ⟨store, plans⟩ facts with
    ⟨after, looked⟩ | ⟨left, begins⟩
  · have told : failed.1 = _ := congrArg Prod.fst looked
    cases ends.symm.trans told
    exact absurd rfl atEntry
  have stops : (importEntries patience now seen listing.entries).run.run faulty
      (⟨store, left⟩, facts) = (.error (.store (.storageFailure operation details)), failed.2) :=
    begins.symm.trans (Prod.ext ends rfl)
  rcases exists_failsAt stops with ⟨before, point, update, rest, count, middle, parted, fails⟩
  rcases exists_resumable sound patient parted fails with ⟨events, rfl, resumable⟩
  refine ⟨before, point, update, rest, events, parted, ⟨left, middle, fails⟩, resumable.appended,
    resumable.imports, ?_⟩
  intro later other alone resumed whole
  rcases exists_told (ChannelStore.works_working _) resumable.sound.working patient later listing
    listening facts with ⟨_, goesOn⟩
  rcases exists_told store.works_working sound.working patient other listing listening facts with
    ⟨_, anew⟩
  have repeats : resumed = _ := goesOn
  have goesThrough : whole = _ := anew
  rw [repeats, goesThrough]
  exact ChannelStore.sameContent_of_resumed resumable.resumes later other

/-- The channel at "ab:0" was seen to open, and the listing names "cd:1" twice.  Its second event
cannot be inserted, which leaves the channel at "ef:0" without one: imported again, the listing has
that one event to come. -/
theorem failed_import_resumes_repeated :
    let seenLive : List ChannelDeed :=
      [.call (.insertEvent ⟨.epoch, .open, false, none, "ab:0", none, .null⟩)]
    let store := ChannelDeed.applyAll .empty seenLive
    let listing : Listing := .open
      [⟨8, "cd:1", "key", 70, false, true, true⟩, ⟨7, "ab:0", "key", 50, false, true, true⟩,
        ⟨8, "cd:1", "key", 90, false, true, true⟩, ⟨0, "ef:0", "key", 90, true, true, true⟩]
    let plans : List FaultPlan := [⟨"insert_channel_event", 1, some 1⟩]
    let failed := (importAll 1 ⟨5, 0⟩ (.ok listing)).run.run
      (IngestCall.handler faultyHandler true) (⟨store, plans⟩, [])
    let alone (now : Timestamp) (store : ChannelStore) :=
      (importAll 1 now (.ok listing)).run.run
        (IngestCall.handler ChannelStore.handler true) (store, [])
    let resumed := alone ⟨9, 0⟩ failed.2.1.store.working
    let whole := alone ⟨5, 0⟩ store.working
    0 < 1 ∧ "insert_channel_event" ≠ "existing_channel_points" ∧
      failed.1 = .error (.store (.injected "insert_channel_event")) ∧
      failed.2.1.store.events.map ChannelEvent.point = ["ab:0", "cd:1"] ∧
      failed.2.1.store.channels.rows.map Channel.point = ["cd:1", "ef:0"] ∧
      resumed.1 = .ok 1 ∧ whole.1 = .ok 2 ∧ resumed.2.1.SameContent whole.2.1 := by
  intro seenLive store listing plans failed alone resumed whole
  have fails : failed.1 = .error (.store (.injected "insert_channel_event")) := by
    decide +kernel
  have past : "insert_channel_event" ≠ "existing_channel_points" := by decide
  have noted : failed.2.1.store.events.map ChannelEvent.point = ["ab:0", "cd:1"] := by
    decide +kernel
  have filed : failed.2.1.store.channels.rows.map Channel.point = ["cd:1", "ef:0"] := by
    decide +kernel
  have rest : resumed.1 = .ok 1 := by decide +kernel
  rcases failed_import_resumes seenLive plans 1 Nat.one_pos ⟨5, 0⟩ listing true [] _ _ fails past
    with ⟨_, _, _, _, events, _, _, appended, _, resumes⟩
  have held : store.events.length = 1 := by rfl
  have one : events.length = 1 := by
    have both : failed.2.1.store.events.length = 2 := by
      rw [← List.length_map, noted]
      rfl
    rw [appended, List.length_append, held] at both
    omega
  rcases resumes ⟨9, 0⟩ ⟨5, 0⟩ with ⟨count, same⟩
  have counts : whole.1 = resumed.1.map (· + events.length) := count
  have all : whole.1 = .ok 2 := by
    rw [counts, rest, one]
    rfl
  refine ⟨Nat.one_pos, past, fails, noted, filed, rest, all, ?_⟩
  dsimp only [resumed, whole, alone, failed, store] at same ⊢
  exact same

end Listing

end NodeSteward
