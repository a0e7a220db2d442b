import NodeSteward.Proofs.Channel.Change
import NodeSteward.Proofs.Channel.Outpoint

/-!
# The integrity of the channel store

A channel point and a short identifier each belong to one channel at most, and the funding outpoint
of a channel is the one that its channel point names.  The two rules of uniqueness are checked at
different places: a channel point when a channel is inserted, a short identifier also when a channel
gets one later.

What a channel was inserted with stays, channels are never removed, and events are only appended.  A
call that fails leaves the channels and the events as they are.
-/

namespace NodeSteward

namespace ChannelStore

variable {store : ChannelStore} {request : ChannelCall} {held : Channel}

/-- What the store promises about its channels. -/
structure Intact (store : ChannelStore) : Prop where
  filed : store.channels.FiledByOwnId
  pointsOnce : ∀ first ∈ store.channels.rows, ∀ second ∈ store.channels.rows,
    first.point = second.point → first = second
  shortIdsOnce : ∀ first ∈ store.channels.rows, ∀ second ∈ store.channels.rows,
    ∀ id, first.shortChannelId = some id → second.shortChannelId = some id → first = second
  outpoints : ∀ channel ∈ store.channels.rows,
    NamesOutpoint channel.point channel.fundingHash channel.fundingOutput.toNat

theorem shortIdTaken_eq_false_iff {id : ShortChannelId} {except : ChannelId} :
    store.shortIdTaken (some id) except = false ↔
      ∀ channel ∈ store.channels.rows, channel.shortChannelId = some id → channel.id = except := by
  rw [shortIdTaken, Option.isSome_some, Bool.true_and, List.any_eq_false]
  simp only [Bool.and_eq_true, decide_eq_true_eq]
  constructor
  · intro free channel member named
    exact Decidable.byContradiction fun other => free channel member ⟨other, named⟩
  · rintro only channel member ⟨other, named⟩
    exact other (only channel member named)

/-- A channel has its short identifier for itself: it had it before, or no other channel has it. -/
def OwnShortId (before after : ChannelStore) (held : Channel) (id : ShortChannelId) : Prop :=
  (∃ channel ∈ before.channels.rows, channel.id = held.id ∧ channel.shortChannelId = some id) ∨
    ∀ other ∈ after.channels.rows, other.shortChannelId = some id → other.id = held.id

theorem ownShortId_of_ensureChannel (store : ChannelStore) (wanted : NewChannel)
    {id : ShortChannelId}
    (present : held ∈ (store.ensureChannel wanted).2.channels.rows)
    (named : held.shortChannelId = some id) :
    store.OwnShortId (store.ensureChannel wanted).2 held id := by
  revert present
  unfold ensureChannel
  split
  · exact fun present => Or.inl ⟨held, present, rfl, named⟩
  · dsimp only
    split
    · rename_i taken given
      split
      · exact fun present => Or.inl ⟨held, present, rfl, named⟩
      · rename_i free
        rw [Bool.not_eq_true, shortIdTaken_eq_false_iff] at free
        intro present
        rcases Table.mem_rows_insert.mp present with rfl | ⟨old, _⟩
        · refine Or.inr fun other among same => ?_
          rcases Table.mem_rows_insert.mp among with rfl | ⟨earlier, _⟩
          · rfl
          · rw [given] at named
            exact free other earlier (same.trans named.symm)
        · exact Or.inl ⟨held, old, rfl, named⟩
    · rename_i nameless
      intro present
      rcases Table.mem_rows_insert.mp present with rfl | ⟨old, _⟩
      · rw [nameless] at named
        cases named
      · exact Or.inl ⟨held, old, rfl, named⟩

theorem ownShortId_of_setShortChannelId (store : ChannelStore) (now : Timestamp)
    (target : ChannelId) (shortId : ShortChannelId) {id : ShortChannelId}
    (present : held ∈ (store.setShortChannelId now target shortId).2.channels.rows)
    (named : held.shortChannelId = some id) :
    store.OwnShortId (store.setShortChannelId now target shortId).2 held id := by
  revert present
  unfold setShortChannelId
  split
  · exact fun present => Or.inl ⟨held, present, rfl, named⟩
  · split
    · split
      · exact fun present => Or.inl ⟨held, present, rfl, named⟩
      · rename_i free
        rw [Bool.not_eq_true, shortIdTaken_eq_false_iff] at free
        simp only [OwnShortId, Table.mem_rows_modify_iff]
        rintro (⟨channel, _, targeted, rfl⟩ | ⟨old, _⟩)
        · cases named
          refine Or.inr ?_
          rintro other (⟨earlier, _, again, rfl⟩ | ⟨earlier, spared⟩) same
          · exact again.trans targeted.symm
          · exact absurd (free other earlier same) spared
        · exact Or.inl ⟨held, old, rfl, named⟩
    · exact fun present => Or.inl ⟨held, present, rfl, named⟩

/-- No call gives a channel the short identifier of another one. -/
theorem ownShortId_of_handler (sound : store.Sound) {id : ShortChannelId}
    (present : held ∈ (handler request store).2.channels.rows)
    (named : held.shortChannelId = some id) :
    store.OwnShortId (handler request store).2 held id := by
  have kept : (∀ wanted, request ≠ .ensureChannel wanted) →
      (∀ now target shortId, request ≠ .setShortChannelId now target shortId) →
      store.OwnShortId (handler request store).2 held id := by
    intro noInsert noName
    rcases (handler_changes request store).source sound present with
      ⟨channel, member, rfl | rewrites⟩ | ⟨wanted, asked, _⟩
    · exact Or.inl ⟨held, member, rfl, named⟩
    · have same := rewrites.shortChannelId noName
      exact Or.inl ⟨channel, member, rewrites.id.symm, same.symm.trans named⟩
    · exact absurd asked (noInsert wanted)
  cases request with
  | ensureChannel wanted => exact ownShortId_of_ensureChannel store wanted present named
  | setShortChannelId now target shortId =>
    exact ownShortId_of_setShortChannelId store now target shortId present named
  | _ => exact kept (fun _ => nofun) (fun _ _ _ => nofun)

/-! ## What every call keeps -/

namespace Intact

theorem empty : ChannelStore.empty.Intact where
  filed := Table.filedByOwnId _
  pointsOnce _ member := absurd member List.not_mem_nil
  shortIdsOnce _ member := absurd member List.not_mem_nil
  outpoints _ member := absurd member List.not_mem_nil

/-- Two channels with one short identifier had it both before, or one of them has it for itself. -/
theorem shortIdsOnce_of_handler (intact : store.Intact) (sound : store.Sound)
    (request : ChannelCall) :
    ∀ first ∈ (handler request store).2.channels.rows,
      ∀ second ∈ (handler request store).2.channels.rows, ∀ id,
        first.shortChannelId = some id → second.shortChannelId = some id → first = second := by
  intro first firstPresent second secondPresent id firstNamed secondNamed
  suffices first.id = second.id from Table.eq_of_mem_of_idOf firstPresent secondPresent this
  rcases ownShortId_of_handler sound firstPresent firstNamed with
    ⟨one, oneMember, oneId, oneNamed⟩ | alone
  · rcases ownShortId_of_handler sound secondPresent secondNamed with
      ⟨other, otherMember, otherId, otherNamed⟩ | alone
    · rw [← oneId, ← otherId,
        intact.shortIdsOnce one oneMember other otherMember id oneNamed otherNamed]
    · exact alone first firstPresent firstNamed
  · exact (alone second secondPresent secondNamed).symm

theorem outpoint_of_rewrites {channel written : Channel}
    (rewrites : Channel.Rewrites request channel written) :
    written.fundingHash = channel.fundingHash ∧ written.fundingOutput = channel.fundingOutput := by
  cases rewrites with
  | confirmed _ now transaction confirmation => cases transaction <;> exact ⟨rfl, rfl⟩
  | named => exact ⟨rfl, rfl⟩
  | moved now change applies =>
    rw [(Channel.applyStatusChange?_eq_some_iff.mp applies).2]
    exact ⟨rfl, rfl⟩

theorem of_handler (intact : store.Intact) (sound : store.Sound) (request : ChannelCall) :
    (handler request store).2.Intact where
  filed := Table.filedByOwnId _
  pointsOnce := (sound.of_handler request).pointsOnce
  shortIdsOnce := intact.shortIdsOnce_of_handler sound request
  outpoints held present := by
    rcases (handler_changes request store).source sound present with
      ⟨channel, member, rfl | rewrites⟩ | ⟨wanted, _, _, rfl⟩
    · exact intact.outpoints held member
    · have named := intact.outpoints channel member
      rcases outpoint_of_rewrites rewrites with ⟨sameHash, sameOutput⟩
      rw [rewrites.point, sameHash, sameOutput]
      exact named
    · exact wanted.names_fundingOutpoint

/-- The store keeps its promises after every history of its own operations. -/
theorem applyAll (deeds : List ChannelDeed) : (ChannelDeed.applyAll .empty deeds).Intact := by
  have both : (ChannelDeed.applyAll .empty deeds).Sound ∧
      (ChannelDeed.applyAll .empty deeds).Intact := by
    apply ChannelDeed.applyAll_keeps fun store => store.Sound ∧ store.Intact
    · rintro request store ⟨sound, intact⟩
      exact ⟨sound.of_handler request, intact.of_handler sound request⟩
    · rintro store refusesEvents refusesUpdates ⟨sound, intact⟩
      exact ⟨⟨sound.issued, sound.pointsOnce⟩,
        ⟨intact.filed, intact.pointsOnce, intact.shortIdsOnce, intact.outpoints⟩⟩
    · exact ⟨.empty, .empty⟩
  exact both.2

end Intact

end ChannelStore

/-- What a channel was inserted with and keeps. -/
structure Channel.SameOrigin (channel held : Channel) : Prop where
  id : held.id = channel.id
  point : held.point = channel.point
  createdOn : held.createdOn = channel.createdOn
  remotePubKey : held.remotePubKey = channel.remotePubKey
  capacity : held.capacity = channel.capacity
  isPrivate : held.isPrivate = channel.isPrivate

namespace Channel.SameOrigin

theorem refl (channel : Channel) : channel.SameOrigin channel :=
  ⟨rfl, rfl, rfl, rfl, rfl, rfl⟩

theorem trans {first second third : Channel} (before : first.SameOrigin second)
    (behind : second.SameOrigin third) : first.SameOrigin third where
  id := behind.id.trans before.id
  point := behind.point.trans before.point
  createdOn := behind.createdOn.trans before.createdOn
  remotePubKey := behind.remotePubKey.trans before.remotePubKey
  capacity := behind.capacity.trans before.capacity
  isPrivate := behind.isPrivate.trans before.isPrivate

theorem of_rewrites {request : ChannelCall} {channel written : Channel}
    (rewrites : Rewrites request channel written) : channel.SameOrigin written := by
  cases rewrites with
  | confirmed _ now transaction confirmation =>
    cases transaction <;> exact ⟨rfl, rfl, rfl, rfl, rfl, rfl⟩
  | named => exact ⟨rfl, rfl, rfl, rfl, rfl, rfl⟩
  | moved now change applies =>
    rw [(applyStatusChange?_eq_some_iff.mp applies).2]
    exact ⟨rfl, rfl, rfl, rfl, rfl, rfl⟩

end Channel.SameOrigin

namespace ChannelStore

variable {store : ChannelStore} {request : ChannelCall}

/-- One state is a later one of the same store: its channels are still there, and its events are
followed by others. -/
structure Continues (before after : ChannelStore) : Prop where
  channels : before.Each Channel.SameOrigin after
  events : before.events <+: after.events

namespace Continues

theorem refl (store : ChannelStore) : store.Continues store :=
  ⟨.refl store Channel.SameOrigin.refl, List.prefix_refl _⟩

theorem trans {first second third : ChannelStore} (before : first.Continues second)
    (behind : second.Continues third) : first.Continues third :=
  ⟨before.channels.trans Channel.SameOrigin.trans behind.channels,
    before.events.trans behind.events⟩

theorem of_handler (sound : store.Sound) (request : ChannelCall) :
    store.Continues (handler request store).2 where
  channels := by
    refine ((handler_changes request store).each sound).mono ?_
    rintro channel held (rfl | rewrites)
    · exact .refl _
    · exact .of_rewrites rewrites
  events := by
    rcases (handler_changes request store).events with same | ⟨event, _, appended⟩
    · exact ⟨[], (List.append_nil _).trans same.symm⟩
    · exact ⟨[event], appended.symm⟩

theorem applyAll (sound : store.Sound) (deeds : List ChannelDeed) :
    store.Continues (ChannelDeed.applyAll store deeds) := by
  have both : store.Continues (ChannelDeed.applyAll store deeds) ∧
      (ChannelDeed.applyAll store deeds).Sound := by
    apply ChannelDeed.applyAll_keeps fun after => store.Continues after ∧ after.Sound
    · rintro request after ⟨continues, soundNow⟩
      exact ⟨continues.trans (of_handler soundNow request), soundNow.of_handler request⟩
    · rintro after refusesEvents refusesUpdates ⟨continues, soundNow⟩
      exact ⟨⟨continues.channels, continues.events⟩, soundNow.issued, soundNow.pointsOnce⟩
    · exact ⟨.refl store, sound⟩
  exact both.1

end Continues

/-- A call that fails leaves the channels and the events as they are. -/
theorem handler_of_error {cause : StoreError} (failed : (handler request store).1 = .error cause) :
    (handler request store).2.channels = store.channels ∧
      (handler request store).2.events = store.events := by
  revert failed
  cases request with
  | ensureChannel wanted =>
    rw [handler, ensureChannel]
    split
    · intro answered
      cases answered
    · dsimp only
      split
      · split
        · exact fun _ => ⟨rfl, rfl⟩
        · intro answered
          cases answered
      · intro answered
        cases answered
  | recordConfirmation now id transaction confirmation =>
    rw [handler, recordConfirmation]
    split
    · exact fun _ => ⟨rfl, rfl⟩
    · split
      · intro answered
        cases answered
      · exact fun _ => ⟨rfl, rfl⟩
  | setShortChannelId now id shortId =>
    rw [handler, setShortChannelId]
    split
    · exact fun _ => ⟨rfl, rfl⟩
    · split
      · split
        · exact fun _ => ⟨rfl, rfl⟩
        · intro answered
          cases answered
      · exact fun _ => ⟨rfl, rfl⟩
  | changeStatus now point change =>
    rw [handler, changeStatus]
    split
    · exact fun _ => ⟨rfl, rfl⟩
    · split
      · intro answered
        cases answered
      · split
        · intro answered
          cases answered
        · intro answered
          cases answered
  | insertEvent event =>
    rw [handler, insertEvent]
    split
    · exact fun _ => ⟨rfl, rfl⟩
    · intro answered
      cases answered
  | _ =>
    intro answered
    cases answered

/-- After any history the store keeps its promises, everything that happens later continues it, and
a call that fails changes no channel and no event. -/
theorem history_keeps_integrity (deeds : List ChannelDeed) :
    (ChannelDeed.applyAll .empty deeds).Intact ∧
      (∀ later, (ChannelDeed.applyAll .empty deeds).Continues
        (ChannelDeed.applyAll .empty (deeds ++ later))) ∧
      ∀ request cause, (handler request (ChannelDeed.applyAll .empty deeds)).1 = .error cause →
        (handler request (ChannelDeed.applyAll .empty deeds)).2.channels =
            (ChannelDeed.applyAll .empty deeds).channels ∧
          (handler request (ChannelDeed.applyAll .empty deeds)).2.events =
            (ChannelDeed.applyAll .empty deeds).events := by
  refine ⟨.applyAll deeds, fun later => ?_, fun request cause failed => handler_of_error failed⟩
  rw [ChannelDeed.applyAll_append]
  exact .applyAll (.applyAll deeds) later

end ChannelStore

end NodeSteward
