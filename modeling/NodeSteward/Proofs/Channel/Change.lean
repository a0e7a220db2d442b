import NodeSteward.Channel.Requests
import NodeSteward.Proofs.Table

/-!
# What a call can do to the channel store

A call leaves the store as it is, or changes it in the one way that is listed here for it: it
writes to one channel, adds a channel, or appends to another table.  No call removes a channel or
gives it another identifier or channel point, and the identifier of a new channel is one that was
not handed out before.

The states that the store can come to by its own operations are those after its histories, in
which failing writes may be switched on and off as well.
-/

namespace NodeSteward

/-- An operation of the store itself. -/
inductive ChannelDeed where
  | call (request : ChannelCall)
  /-- Whether events are refused from now on. -/
  | refuseEvents (refuses : Bool)
  /-- Whether changes of channels are refused from now on. -/
  | refuseUpdates (refuses : Bool)

namespace ChannelDeed

/-- The store after an operation. -/
def apply (store : ChannelStore) : ChannelDeed → ChannelStore
  | call request => (ChannelStore.handler request store).2
  | refuseEvents refuses => { store with refusesEvents := refuses }
  | refuseUpdates refuses => { store with refusesUpdates := refuses }

/-- The store after a history of operations. -/
def applyAll (store : ChannelStore) (deeds : List ChannelDeed) : ChannelStore :=
  deeds.foldl apply store

theorem applyAll_append (store : ChannelStore) (earlier later : List ChannelDeed) :
    applyAll store (earlier ++ later) = applyAll (applyAll store earlier) later :=
  List.foldl_append

/-- What every call keeps, and what does not depend on the switches, holds after every history. -/
theorem applyAll_keeps (Holds : ChannelStore → Prop)
    (call : ∀ request store, Holds store → Holds (ChannelStore.handler request store).2)
    (switch : ∀ store refusesEvents refusesUpdates, Holds store →
      Holds { store with refusesEvents, refusesUpdates })
    (deeds : List ChannelDeed) {store : ChannelStore} (holds : Holds store) :
    Holds (applyAll store deeds) := by
  induction deeds generalizing store with
  | nil => exact holds
  | cons deed deeds ih =>
    apply ih
    cases deed with
    | call request => exact call request store holds
    | refuseEvents refuses => exact switch store refuses store.refusesUpdates holds
    | refuseUpdates refuses => exact switch store store.refusesEvents refuses holds

end ChannelDeed

/-- What a call may make of a channel to which it writes. -/
inductive Channel.Rewrites : ChannelCall → Channel → Channel → Prop
  | confirmed (channel : Channel) (now : Timestamp) (transaction : ChannelTransaction)
    (confirmation : Confirmation) :
    Rewrites (.recordConfirmation now channel.id transaction confirmation) channel
      { channel.applyConfirmation transaction confirmation with updatedOn := now }
  | named (channel : Channel) (now : Timestamp) (shortId : ShortChannelId) :
    Rewrites (.setShortChannelId now channel.id shortId) channel
      { channel with shortChannelId := some shortId, updatedOn := now }
  | moved {channel moved : Channel} (now : Timestamp) (change : StatusChange)
    (applies : channel.applyStatusChange? change = some moved) :
    Rewrites (.changeStatus now channel.point change) channel { moved with updatedOn := now }

namespace Channel

variable {channel written : Channel} {request : ChannelCall}

/-- A change of status, field by field. -/
theorem applyStatusChange?_eq_some_iff {change : StatusChange} {moved : Channel} :
    channel.applyStatusChange? change = some moved ↔
      channel.status = change.source ∧
        moved = { channel with
          status := change.target
          closingHash := if channel.closingHash.isNone then change.closingHash
            else channel.closingHash
          closingHeight := if channel.closingHash.isNone then change.closingHeight
            else channel.closingHeight } := by
  unfold applyStatusChange?
  by_cases starts : channel.status = change.source
  · rw [if_pos starts, Option.some_inj, eq_comm]
    cases channel.closingHash <;> simp [starts]
  · rw [if_neg starts]
    simp [starts]

theorem Rewrites.id (rewrites : Rewrites request channel written) : written.id = channel.id := by
  cases rewrites with
  | confirmed _ now transaction confirmation => cases transaction <;> rfl
  | named => rfl
  | moved now change applies => rw [(applyStatusChange?_eq_some_iff.mp applies).2]

theorem Rewrites.point (rewrites : Rewrites request channel written) :
    written.point = channel.point := by
  cases rewrites with
  | confirmed _ now transaction confirmation => cases transaction <;> rfl
  | named => rfl
  | moved now change applies => rw [(applyStatusChange?_eq_some_iff.mp applies).2]

/-- A channel keeps its short identifier unless the call is about that. -/
theorem Rewrites.shortChannelId (rewrites : Rewrites request channel written)
    (other : ∀ now target shortId, request ≠ .setShortChannelId now target shortId) :
    written.shortChannelId = channel.shortChannelId := by
  cases rewrites with
  | confirmed _ now transaction confirmation => cases transaction <;> rfl
  | named now shortId => exact absurd rfl (other _ _ _)
  | moved now change applies => rw [(applyStatusChange?_eq_some_iff.mp applies).2]

end Channel

namespace ChannelStore

variable {store : ChannelStore}

/-- What holds of a store in every state that it can come to. -/
structure Sound (store : ChannelStore) : Prop where
  /-- No stored channel carries an identifier that is still to be handed out. -/
  issued : ∀ channel ∈ store.channels.rows, channel.id.raw ≤ store.issued
  pointsOnce : ∀ first ∈ store.channels.rows, ∀ second ∈ store.channels.rows,
    first.point = second.point → first = second

theorem point_of_channelAt? {point : String} {channel : Channel}
    (found : store.channelAt? point = some channel) :
    channel ∈ store.channels.rows ∧ channel.point = point := by
  have filed := List.find?_some found
  exact ⟨List.mem_of_find?_eq_some found, by simpa using filed⟩

theorem channelAt?_eq_none_iff {point : String} :
    store.channelAt? point = none ↔ ∀ channel ∈ store.channels.rows, channel.point ≠ point := by
  simp [channelAt?]

/-- In a sound store a channel is found by its channel point. -/
theorem Sound.channelAt?_eq_some_iff (sound : store.Sound) {point : String} {channel : Channel} :
    store.channelAt? point = some channel ↔
      channel ∈ store.channels.rows ∧ channel.point = point := by
  refine ⟨point_of_channelAt?, ?_⟩
  rintro ⟨member, rfl⟩
  cases found : store.channelAt? channel.point with
  | none => exact absurd rfl (channelAt?_eq_none_iff.mp found channel member)
  | some other =>
    rcases point_of_channelAt? found with ⟨otherMember, same⟩
    rw [sound.pointsOnce other otherMember channel member same]

/-! ## The change of each call -/

/-- What each call can leave. -/
inductive Changes (store : ChannelStore) : ChannelCall → ChannelStore → Prop where
  | nothing (request : ChannelCall) : Changes store request store
  /-- The short identifier of a new channel is taken. -/
  | refused (wanted : NewChannel) :
    Changes store (.ensureChannel wanted) { store with issued := store.issued + 1 }
  | added (wanted : NewChannel) (free : store.channelAt? wanted.point = none) :
    Changes store (.ensureChannel wanted)
      { store with
        issued := store.issued + 1
        channels := store.channels.insert (wanted.withId ⟨(store.issued : Int) + 1⟩) }
  | written (request : ChannelCall) (id : ChannelId) (change : Channel → Channel)
    (keeps : ∀ held, Filed.idOf (change held) = (Filed.idOf held : ChannelId))
    (rewrites : ∀ held ∈ store.channels.rows, held.id = id →
      Channel.Rewrites request held (change held)) :
    Changes store request { store with channels := store.channels.modify id change keeps }
  | eventAdded (event : ChannelEvent) :
    Changes store (.insertEvent event) { store with events := store.events ++ [event] }
  | transactionsWritten (transaction : Transaction) (transactions : List Transaction) :
    Changes store (.insertTransaction transaction) { store with transactions }

namespace Changes

theorem of_ensureChannel (store : ChannelStore) (wanted : NewChannel) :
    store.Changes (.ensureChannel wanted) (store.ensureChannel wanted).2 := by
  unfold ensureChannel
  split
  · exact .nothing _
  · rename_i free
    dsimp only
    split
    · split
      · exact .refused wanted
      · exact .added wanted free
    · exact .added wanted free

theorem of_recordConfirmation (store : ChannelStore) (now : Timestamp) (id : ChannelId)
    (transaction : ChannelTransaction) (confirmation : Confirmation) :
    store.Changes (.recordConfirmation now id transaction confirmation)
      (store.recordConfirmation now id transaction confirmation).2 := by
  unfold recordConfirmation
  split
  · exact .nothing _
  · split
    · refine .written _ id _ _ ?_
      rintro held _ rfl
      exact .confirmed held now transaction confirmation
    · exact .nothing _

theorem of_setShortChannelId (store : ChannelStore) (now : Timestamp) (id : ChannelId)
    (shortId : ShortChannelId) :
    store.Changes (.setShortChannelId now id shortId)
      (store.setShortChannelId now id shortId).2 := by
  unfold setShortChannelId
  split
  · exact .nothing _
  · split
    · split
      · exact .nothing _
      · refine .written _ id _ _ ?_
        rintro held _ rfl
        exact .named held now shortId
    · exact .nothing _

theorem of_changeStatus (store : ChannelStore) (now : Timestamp) (point : String)
    (change : StatusChange) :
    store.Changes (.changeStatus now point change) (store.changeStatus now point change).2 := by
  unfold changeStatus
  split
  · exact .nothing _
  · split
    · exact .nothing _
    · rename_i channel found
      rcases point_of_channelAt? found with ⟨member, rfl⟩
      split
      · exact .nothing _
      · rename_i moved applies
        refine .written _ channel.id _ _ ?_
        intro held heldMember same
        have only : held = channel := Table.eq_of_mem_of_idOf heldMember member same
        subst only
        have named : moved.id = held.id := by
          rw [(Channel.applyStatusChange?_eq_some_iff.mp applies).2]
        rw [applies, Option.getD_some, ← named]
        exact .moved now change applies

theorem of_insertEvent (store : ChannelStore) (event : ChannelEvent) :
    store.Changes (.insertEvent event) (store.insertEvent event).2 := by
  unfold insertEvent
  split
  · exact .nothing _
  · exact .eventAdded event

end Changes

theorem handler_changes (request : ChannelCall) (store : ChannelStore) :
    store.Changes request (handler request store).2 := by
  cases request with
  | ensureChannel wanted => exact .of_ensureChannel store wanted
  | recordConfirmation now id transaction confirmation =>
    exact .of_recordConfirmation store now id transaction confirmation
  | setShortChannelId now id shortId => exact .of_setShortChannelId store now id shortId
  | changeStatus now point change => exact .of_changeStatus store now point change
  | insertEvent event => exact .of_insertEvent store event
  | insertTransaction transaction => exact .transactionsWritten transaction _
  | _ => exact .nothing _

/-! ## What becomes of the channels -/

/-- Every channel of one state is in the other one under its identifier, and related to what it
was. -/
def Each (related : Channel → Channel → Prop) (before after : ChannelStore) : Prop :=
  ∀ channel ∈ before.channels.rows, ∃ held ∈ after.channels.rows,
    held.id = channel.id ∧ related channel held

theorem Each.mono {related other : Channel → Channel → Prop} {before after : ChannelStore}
    (each : before.Each related after)
    (wider : ∀ channel held, related channel held → other channel held) :
    before.Each other after := by
  intro channel member
  rcases each channel member with ⟨held, present, same, relates⟩
  exact ⟨held, present, same, wider channel held relates⟩

theorem Each.refl {related : Channel → Channel → Prop} (store : ChannelStore)
    (reflexive : ∀ channel, related channel channel) : store.Each related store :=
  fun channel member => ⟨channel, member, rfl, reflexive channel⟩

theorem Each.trans {related : Channel → Channel → Prop} {first second third : ChannelStore}
    (transitive : ∀ {one two three}, related one two → related two three → related one three)
    (before : first.Each related second) (behind : second.Each related third) :
    first.Each related third := by
  intro channel member
  rcases before channel member with ⟨middle, there, same, relates⟩
  rcases behind middle there with ⟨last, present, again, further⟩
  exact ⟨last, present, again.trans same, transitive relates further⟩

namespace Changes

variable {after : ChannelStore} {request : ChannelCall}

/-- A channel stays as it is, or the call writes to it. -/
theorem each (changes : store.Changes request after) (sound : store.Sound) :
    store.Each (fun channel held => held = channel ∨ Channel.Rewrites request channel held)
      after := by
  intro channel member
  cases changes with
  | nothing => exact ⟨channel, member, rfl, Or.inl rfl⟩
  | refused => exact ⟨channel, member, rfl, Or.inl rfl⟩
  | added wanted =>
    refine ⟨channel, Table.mem_rows_insert.mpr (Or.inr ⟨member, ?_⟩), rfl, Or.inl rfl⟩
    intro same
    have bound := sound.issued channel member
    have next : channel.id = ⟨(store.issued : Int) + 1⟩ := same
    rw [next] at bound
    exact absurd bound (Int.not_le.mpr (Int.lt_succ _))
  | written request id change keeps rewrites =>
    refine ⟨_, (Table.mem_rows_modify keeps).mpr ⟨channel, member, rfl⟩, ?_⟩
    split
    · rename_i named
      exact ⟨keeps channel, Or.inr (rewrites channel member named)⟩
    · exact ⟨rfl, Or.inl rfl⟩
  | eventAdded => exact ⟨channel, member, rfl, Or.inl rfl⟩
  | transactionsWritten => exact ⟨channel, member, rfl, Or.inl rfl⟩

/-- A stored channel was there before, or the call has added it. -/
theorem origin (changes : store.Changes request after) {held : Channel}
    (present : held ∈ after.channels.rows) :
    (∃ channel ∈ store.channels.rows, held.id = channel.id ∧ held.point = channel.point) ∨
      ∃ wanted, request = .ensureChannel wanted ∧ store.channelAt? wanted.point = none ∧
        held = wanted.withId ⟨(store.issued : Int) + 1⟩ ∧ after.issued = store.issued + 1 := by
  cases changes with
  | nothing => exact Or.inl ⟨held, present, rfl, rfl⟩
  | refused => exact Or.inl ⟨held, present, rfl, rfl⟩
  | added wanted free =>
    rcases Table.mem_rows_insert.mp present with rfl | ⟨old, _⟩
    · exact Or.inr ⟨wanted, rfl, free, rfl, rfl⟩
    · exact Or.inl ⟨held, old, rfl, rfl⟩
  | written request id change keeps rewrites =>
    rcases (Table.mem_rows_modify keeps).mp present with ⟨channel, member, rfl⟩
    refine Or.inl ⟨channel, member, ?_⟩
    split
    · rename_i named
      exact ⟨keeps channel, (rewrites channel member named).point⟩
    · exact ⟨rfl, rfl⟩
  | eventAdded => exact Or.inl ⟨held, present, rfl, rfl⟩
  | transactionsWritten => exact Or.inl ⟨held, present, rfl, rfl⟩

/-- A stored channel is as it was, or the call has written to it or added it. -/
theorem source (changes : store.Changes request after) (sound : store.Sound) {held : Channel}
    (present : held ∈ after.channels.rows) :
    (∃ channel ∈ store.channels.rows, held = channel ∨ Channel.Rewrites request channel held) ∨
      ∃ wanted, request = .ensureChannel wanted ∧ store.channelAt? wanted.point = none ∧
        held = wanted.withId ⟨(store.issued : Int) + 1⟩ := by
  rcases changes.origin present with ⟨channel, member, same, _⟩ | ⟨wanted, asked, free, new, _⟩
  · rcases changes.each sound channel member with ⟨other, there, sameId, relates⟩
    have only : other = held := Table.eq_of_mem_of_idOf there present (sameId.trans same.symm)
    subst only
    exact Or.inl ⟨channel, member, relates⟩
  · exact Or.inr ⟨wanted, asked, free, new⟩

theorem issued_le (changes : store.Changes request after) : store.issued ≤ after.issued := by
  cases changes with
  | refused => exact Nat.le_succ _
  | added => exact Nat.le_succ _
  | _ => exact Nat.le_refl _

/-- Events are only ever appended. -/
theorem events (changes : store.Changes request after) :
    after.events = store.events ∨
      ∃ event, request = .insertEvent event ∧ after.events = store.events ++ [event] := by
  cases changes with
  | eventAdded event => exact Or.inr ⟨event, rfl, rfl⟩
  | _ => exact Or.inl rfl

end Changes

namespace Sound

theorem empty : ChannelStore.empty.Sound where
  issued _ member := absurd member List.not_mem_nil
  pointsOnce _ member := absurd member List.not_mem_nil

/-- Every call keeps a store sound. -/
theorem of_changes {after : ChannelStore} {request : ChannelCall} (sound : store.Sound)
    (changes : store.Changes request after) : after.Sound where
  issued held present := by
    rcases changes.origin present with ⟨channel, member, same, _⟩ | ⟨wanted, _, _, rfl, more⟩
    · rw [same]
      exact Int.le_trans (sound.issued channel member) (Int.ofNat_le.mpr changes.issued_le)
    · rw [more]
      exact Int.le_refl _
  pointsOnce first firstPresent second secondPresent samePoint := by
    have inserted : ∀ (wanted : NewChannel) (id : ChannelId), (wanted.withId id).point =
        wanted.point := fun _ _ => rfl
    rcases changes.origin firstPresent with ⟨one, oneMember, oneId, onePoint⟩ |
      ⟨wanted, asked, free, rfl, _⟩
    · rcases changes.origin secondPresent with ⟨two, twoMember, twoId, twoPoint⟩ |
        ⟨wanted, _, free, rfl, _⟩
      · have same := sound.pointsOnce one oneMember two twoMember
          (onePoint.symm.trans (samePoint.trans twoPoint))
        subst same
        exact Table.eq_of_mem_of_idOf firstPresent secondPresent (oneId.trans twoId.symm)
      · rw [inserted, onePoint] at samePoint
        exact absurd samePoint (channelAt?_eq_none_iff.mp free one oneMember)
    · rcases changes.origin secondPresent with ⟨two, twoMember, _, twoPoint⟩ |
        ⟨other, again, _, rfl, _⟩
      · rw [inserted, twoPoint] at samePoint
        exact absurd samePoint.symm (channelAt?_eq_none_iff.mp free two twoMember)
      · rw [asked] at again
        cases again
        rfl

theorem of_handler (sound : store.Sound) (request : ChannelCall) :
    (handler request store).2.Sound :=
  sound.of_changes (handler_changes request store)

/-- The store is sound after every history of its own operations. -/
theorem applyAll (deeds : List ChannelDeed) : (ChannelDeed.applyAll .empty deeds).Sound :=
  ChannelDeed.applyAll_keeps Sound (fun request _ sound => sound.of_handler request)
    (fun _ _ _ sound => ⟨sound.issued, sound.pointsOnce⟩) deeds empty

end Sound

end ChannelStore

end NodeSteward
