import NodeSteward.Proofs.Channel.Finding

/-!
# Sweeping again

A second sweep with the same steady service changes no channel.  A channel needs nothing after a
sweep that it did not need before, and what is asked for it stays the same, so the second sweep
offers the store nothing but what the first one has offered.  Each of these findings is in its
channel by then, or the store refuses it again: a short identifier that was taken stays taken,
because a sweep names no channel that has a name.

The second sweep asks nothing if and only if everything in the first one was conclusive.
-/

namespace NodeSteward

namespace ChannelStore

variable {store : ChannelStore}

/-- A stored channel lacks what the inquiry asks for. -/
def Needs (store : ChannelStore) (key : ChannelId × Inquiry) : Prop :=
  ∃ channel ∈ store.channels.rows, channel.id = key.1 ∧ key.2.isNeeded channel = true

theorem mem_inquiries {channel : Channel} {inquiry : Inquiry} :
    (channel, inquiry) ∈ store.inquiries ↔
      channel ∈ store.channels.rows ∧ inquiry.isNeeded channel = true := by
  have ordered : inquiry ∈ Inquiry.order := by
    rcases inquiry with ⟨_ | _⟩ | _ <;> decide
  rw [inquiries, List.mem_flatMap]
  constructor
  · rintro ⟨listed, member, needs⟩
    rcases List.mem_map.mp needs with ⟨asked, needed, same⟩
    cases same
    exact ⟨member, (List.mem_filter.mp needed).2⟩
  · rintro ⟨member, needed⟩
    exact ⟨channel, member, List.mem_map.mpr ⟨inquiry, List.mem_filter.mpr ⟨ordered, needed⟩, rfl⟩⟩

theorem needs_of_mem_inquiries {inquiry : Channel × Inquiry} (listed : inquiry ∈ store.inquiries) :
    store.Needs (Inquiry.key inquiry) :=
  ⟨inquiry.1, (mem_inquiries.mp listed).1, rfl, (mem_inquiries.mp listed).2⟩

theorem Needs.isNeeded {key : ChannelId × Inquiry} (needs : store.Needs key) {channel : Channel}
    (member : channel ∈ store.channels.rows) (named : channel.id = key.1) :
    key.2.isNeeded channel = true := by
  rcases needs with ⟨other, present, same, needed⟩
  rw [Table.eq_of_mem_of_idOf member present (named.trans same.symm)]
  exact needed

end ChannelStore

/-- Channels that differ only in the instants of their last changes are alike in all else. -/
theorem Channel.eq_of_unstamped {channel held : Channel}
    (same : channel.unstamped = held.unstamped) :
    channel.id = held.id ∧ channel.shortChannelId = held.shortChannelId := by
  have fields := Channel.mk.inj same
  exact ⟨fields.1, fields.2.1⟩

/-- A channel after some inquiries were answered: what is asked for it is the same, and it needs the
same but for those inquiries. -/
structure Channel.Answered (keys : List (ChannelId × Inquiry)) (channel held : Channel) : Prop where
  id : held.id = channel.id
  lookup : ∀ inquiry : Inquiry, inquiry.lookup held = inquiry.lookup channel
  isNeeded : ∀ inquiry, (channel.id, inquiry) ∉ keys →
    inquiry.isNeeded held = inquiry.isNeeded channel

namespace Channel.Answered

variable {keys : List (ChannelId × Inquiry)}

theorem refl (channel : Channel) : channel.Answered keys channel :=
  ⟨rfl, fun _ => rfl, fun _ _ => rfl⟩

theorem trans {first second third : Channel} (before : first.Answered keys second)
    (behind : second.Answered keys third) : first.Answered keys third where
  id := behind.id.trans before.id
  lookup inquiry := (behind.lookup inquiry).trans (before.lookup inquiry)
  isNeeded inquiry other :=
    (behind.isNeeded inquiry (before.id ▸ other)).trans (before.isNeeded inquiry other)

theorem enter {now : Timestamp} {channel : Channel} {finding : Finding}
    (listed : (channel.id, finding.inquiry) ∈ keys) :
    channel.Answered keys (finding.enter now channel) where
  id := Finding.id_enter
  lookup := Finding.lookup_enter
  isNeeded inquiry other := by
    refine Finding.isNeeded_enter_of_ne ?_
    rintro rfl
    exact other listed

end Channel.Answered

namespace ChannelStore

/-- The channels of a store after some inquiries were answered. -/
structure Answered (keys : List (ChannelId × Inquiry)) (before after : ChannelStore) : Prop where
  kept : ∀ channel ∈ before.channels.rows, ∃ held ∈ after.channels.rows, channel.Answered keys held
  source : ∀ held ∈ after.channels.rows, ∃ channel ∈ before.channels.rows,
    channel.Answered keys held

variable {store after : ChannelStore} {keys : List (ChannelId × Inquiry)} {verifier : Verifier}
  {now : Timestamp} {id : ChannelId} {finding : Finding} {inquiry : Channel × Inquiry}
  {inquiries : List (Channel × Inquiry)}

namespace Answered

theorem refl (store : ChannelStore) : store.Answered keys store where
  kept channel member := ⟨channel, member, .refl channel⟩
  source channel member := ⟨channel, member, .refl channel⟩

theorem trans {first second third : ChannelStore} (before : first.Answered keys second)
    (behind : second.Answered keys third) : first.Answered keys third where
  kept channel member := by
    rcases before.kept channel member with ⟨middle, there, answered⟩
    rcases behind.kept middle there with ⟨held, present, further⟩
    exact ⟨held, present, answered.trans further⟩
  source held present := by
    rcases behind.source held present with ⟨middle, there, further⟩
    rcases before.source middle there with ⟨channel, member, answered⟩
    exact ⟨channel, member, answered.trans further⟩

theorem entered (listed : (id, finding.inquiry) ∈ keys) :
    store.Answered keys (store.entered now id finding) := by
  have each : ∀ channel : Channel, channel.Answered keys
      (if channel.id = id then finding.enter now channel else channel) := by
    intro channel
    split
    · rename_i same
      exact .enter (same ▸ listed)
    · exact .refl channel
  constructor
  · intro channel member
    exact ⟨_, mem_rows_entered.mpr ⟨channel, member, rfl⟩, each channel⟩
  · intro held present
    rcases mem_rows_entered.mp present with ⟨channel, member, rfl⟩
    exact ⟨channel, member, each channel⟩

theorem advance (listed : Inquiry.key inquiry ∈ keys) :
    store.Answered keys (verifier.advance now store inquiry) := by
  rcases inquiry with ⟨channel, inquiry⟩
  rcases verifier.advance_cases now store channel inquiry with ⟨_, same⟩ | ⟨finding, found, _, left⟩
  · rw [same]
    exact .refl store
  · rw [left]
    refine .entered ?_
    rw [Verifier.inquiry_of_finding? found]
    exact listed

theorem foldl (listed : ∀ inquiry ∈ inquiries, Inquiry.key inquiry ∈ keys) :
    store.Answered keys (inquiries.foldl (verifier.advance now) store) := by
  induction inquiries generalizing store with
  | nil => exact .refl store
  | cons inquiry inquiries ih =>
    rcases List.forall_mem_cons.mp listed with ⟨first, others⟩
    exact (advance first).trans (ih others)

/-- Only what was answered may no longer be needed. -/
theorem needs_iff (answered : store.Answered keys after) {key : ChannelId × Inquiry}
    (other : key ∉ keys) : after.Needs key ↔ store.Needs key := by
  rcases key with ⟨id, inquiry⟩
  constructor
  · rintro ⟨held, present, rfl, needed⟩
    rcases answered.source held present with ⟨channel, member, answered⟩
    rw [answered.id] at other ⊢
    exact ⟨channel, member, rfl, (answered.isNeeded inquiry other).symm.trans needed⟩
  · rintro ⟨channel, member, rfl, needed⟩
    rcases answered.kept channel member with ⟨held, present, answered⟩
    exact ⟨held, present, answered.id, (answered.isNeeded inquiry other).trans needed⟩

end Answered

/-- Some inquiries are about different things, and nothing of it is known yet. -/
structure Awaits (store : ChannelStore) (inquiries : List (Channel × Inquiry)) : Prop where
  distinct : (inquiries.map Inquiry.key).Nodup
  needed : ∀ inquiry ∈ inquiries, store.Needs (Inquiry.key inquiry)

theorem awaits_inquiries (store : ChannelStore) : store.Awaits store.inquiries :=
  ⟨store.nodup_keys, fun _ => needs_of_mem_inquiries⟩

theorem Awaits.advance (awaits : store.Awaits (inquiry :: inquiries)) :
    (verifier.advance now store inquiry).Awaits inquiries := by
  rcases List.nodup_cons.mp awaits.distinct with ⟨first, others⟩
  refine ⟨others, fun other member => ?_⟩
  have answered : store.Answered [Inquiry.key inquiry] (verifier.advance now store inquiry) :=
    .advance (List.mem_singleton_self _)
  have different : Inquiry.key other ∉ [Inquiry.key inquiry] := by
    intro same
    exact first (List.mem_singleton.mp same ▸ List.mem_map_of_mem member)
  exact (answered.needs_iff different).mpr (awaits.needed other (List.mem_cons_of_mem _ member))

/-! ## Findings that change nothing -/

/-- To offer a finding to the store changes no more than the instant of a last change: the store
refuses it, or the channel says what it says. -/
def Settles (store : ChannelStore) (id : ChannelId) (finding : Finding) : Prop :=
  store.refuses id finding = true ∨
    ∀ channel ∈ store.channels.rows, channel.id = id → finding.IsIn channel

theorem settles_entered : (store.entered now id finding).Settles id finding := by
  refine Or.inr fun held present named => ?_
  rcases mem_rows_entered.mp present with ⟨channel, _, rfl⟩
  split at named
  · rename_i same
    rw [if_pos same]
    exact Finding.isIn_enter
  · rename_i different
    exact absurd named different

/-- A finding that is refused is refused after another one was entered too: if a short identifier
is taken, the channel that has it needs none. -/
theorem refuses_entered {otherId : ChannelId} {other : Finding}
    (refused : store.refuses id finding = true) (needs : store.Needs (otherId, other.inquiry)) :
    (store.entered now otherId other).refuses id finding = true := by
  rw [refuses_eq_true_iff] at refused ⊢
  rcases refused with updates | absent | ⟨shortId, rfl, holder, member, apart, taken⟩
  · exact Or.inl updates
  · refine Or.inr (Or.inl fun held present => ?_)
    rcases mem_rows_entered.mp present with ⟨channel, member, rfl⟩
    have same := absent channel member
    split
    · rw [Finding.id_enter]
      exact same
    · exact same
  · refine Or.inr (Or.inr ⟨shortId, rfl, _, mem_rows_entered.mpr ⟨holder, member, rfl⟩, ?_⟩)
    split
    · rename_i named
      rw [Finding.id_enter]
      refine ⟨apart, ?_⟩
      cases other with
      | confirmation transaction told => cases transaction <;> exact taken
      | shortChannelId otherShortId =>
        have nameless : holder.needsShortChannelId = true := needs.isNeeded member named
        simp [Channel.needsShortChannelId, taken] at nameless
    · exact ⟨apart, taken⟩

namespace Settles

theorem entered (settles : store.Settles id finding) {otherId : ChannelId} {other : Finding}
    (different : (otherId, other.inquiry) ≠ (id, finding.inquiry))
    (needs : store.Needs (otherId, other.inquiry)) :
    (store.entered now otherId other).Settles id finding := by
  rcases settles with refused | isIn
  · exact Or.inl (refuses_entered refused needs)
  · refine Or.inr fun held present named => ?_
    rcases mem_rows_entered.mp present with ⟨channel, member, rfl⟩
    split at named
    · rename_i same
      rw [if_pos same]
      rw [Finding.id_enter] at named
      refine (isIn channel member named).enter fun again => different ?_
      rw [← same, named, again]
    · rename_i apart
      rw [if_neg apart]
      exact isIn channel member named

theorem advance (settles : store.Settles id finding)
    (different : Inquiry.key inquiry ≠ (id, finding.inquiry))
    (needs : store.Needs (Inquiry.key inquiry)) :
    (verifier.advance now store inquiry).Settles id finding := by
  rcases inquiry with ⟨channel, inquiry⟩
  rcases verifier.advance_cases now store channel inquiry with ⟨_, same⟩ | ⟨other, found, _, left⟩
  · rw [same]
    exact settles
  · rw [left]
    cases Verifier.inquiry_of_finding? found
    exact settles.entered different needs

theorem foldl (settles : store.Settles id finding) (awaits : store.Awaits inquiries)
    (other : (id, finding.inquiry) ∉ inquiries.map Inquiry.key) :
    (inquiries.foldl (verifier.advance now) store).Settles id finding := by
  induction inquiries generalizing store with
  | nil => exact settles
  | cons inquiry inquiries ih =>
    have first : Inquiry.key inquiry ≠ (id, finding.inquiry) := (List.ne_of_not_mem_cons other).symm
    have needs := awaits.needed inquiry List.mem_cons_self
    exact ih (settles.advance first needs) awaits.advance (List.not_mem_of_not_mem_cons other)

end Settles

/-- A finding changes nothing once it was offered. -/
theorem settles_advance {channel : Channel} {asked : Inquiry}
    (found : verifier.finding? channel asked = some finding) :
    (verifier.advance now store (channel, asked)).Settles channel.id finding := by
  rcases verifier.advance_cases now store channel asked with
    ⟨refused, same⟩ | ⟨entered, again, _, left⟩
  · rw [same]
    exact Or.inl (refused finding found)
  · rw [left]
    cases found.symm.trans again
    exact settles_entered

/-- After a sweep, no finding of its inquiries changes anything. -/
theorem Awaits.settles (awaits : store.Awaits inquiries) {channel : Channel} {asked : Inquiry}
    (made : (channel, asked) ∈ inquiries)
    (found : verifier.finding? channel asked = some finding) :
    (inquiries.foldl (verifier.advance now) store).Settles channel.id finding := by
  induction inquiries generalizing store with
  | nil => exact absurd made List.not_mem_nil
  | cons inquiry inquiries ih =>
    rcases List.mem_cons.mp made with rfl | later
    · refine (settles_advance found).foldl awaits.advance ?_
      rw [Verifier.inquiry_of_finding? found]
      exact (List.nodup_cons.mp awaits.distinct).1
    · exact ih awaits.advance later

theorem needs_entered_iff (needs : store.Needs (id, finding.inquiry)) :
    (store.entered now id finding).Needs (id, finding.inquiry) ↔ finding.isComplete = false := by
  constructor
  · rintro ⟨held, present, named, again⟩
    rcases mem_rows_entered.mp present with ⟨channel, member, rfl⟩
    split at named
    · rename_i same
      rw [if_pos same, Finding.isNeeded_enter (needs.isNeeded member same)] at again
      simpa using again
    · rename_i different
      exact absurd named different
  · intro incomplete
    rcases needs with ⟨channel, member, rfl, needed⟩
    refine ⟨_, mem_rows_entered.mpr ⟨channel, member, if_pos rfl⟩, Finding.id_enter, ?_⟩
    rw [Finding.isNeeded_enter needed, incomplete]
    rfl

/-- An inquiry is no longer needed after its round if and only if the round was conclusive. -/
theorem isConclusive_round_iff {channel : Channel} {asked : Inquiry}
    (needs : store.Needs (channel.id, asked)) :
    (∀ passage ∈ (asked.round verifier.handler now channel store).passages,
        passage.isConclusive = true) ↔
      ¬ (verifier.advance now store (channel, asked)).Needs (channel.id, asked) := by
  rw [Verifier.isConclusive_round]
  rcases verifier.advance_cases now store channel asked with
    ⟨refused, same⟩ | ⟨finding, found, enters, left⟩
  · rw [same]
    constructor
    · rintro ⟨finding, found, _, enters⟩
      rw [refused finding found] at enters
      cases enters
    · exact fun needless => absurd needs needless
  · rw [left]
    cases Verifier.inquiry_of_finding? found
    rw [needs_entered_iff needs, Bool.not_eq_false]
    constructor
    · rintro ⟨other, again, complete, _⟩
      cases found.symm.trans again
      exact complete
    · exact fun complete => ⟨finding, found, complete, enters⟩

/-- After a sweep nothing of what it asked is needed if and only if all rounds were conclusive. -/
theorem Awaits.isConclusive_rounds_iff (awaits : store.Awaits inquiries) :
    (∀ round ∈ Sweep.rounds verifier.handler now inquiries store, ∀ passage ∈ round.passages,
        passage.isConclusive = true) ↔
      ∀ inquiry ∈ inquiries,
        ¬ (inquiries.foldl (verifier.advance now) store).Needs (Inquiry.key inquiry) := by
  induction inquiries generalizing store with
  | nil => exact ⟨fun _ => List.forall_mem_nil _, fun _ => List.forall_mem_nil _⟩
  | cons inquiry inquiries ih =>
    rcases inquiry with ⟨channel, asked⟩
    have listed : ∀ inquiry ∈ inquiries, Inquiry.key inquiry ∈ inquiries.map Inquiry.key :=
      fun _ member => List.mem_map_of_mem member
    have answered : (verifier.advance now store (channel, asked)).Answered
        (inquiries.map Inquiry.key)
        (inquiries.foldl (verifier.advance now) (verifier.advance now store (channel, asked))) :=
      .foldl listed
    -- the later rounds leave it at what this one has brought about
    have later := answered.needs_iff (List.nodup_cons.mp awaits.distinct).1
    rw [Verifier.rounds_cons, List.forall_mem_cons, List.forall_mem_cons, List.foldl_cons,
      ih awaits.advance, later]
    apply and_congr_left'
    exact isConclusive_round_iff (awaits.needed (channel, asked) List.mem_cons_self)

/-! ## Stores that only differ in the instants of changes -/

/-- The channels of two states are the same apart from the instants of their last changes. -/
structure Resembles (store after : ChannelStore) : Prop where
  channels : after.channels.rows.map Channel.unstamped = store.channels.rows.map Channel.unstamped
  refusesUpdates : after.refusesUpdates = store.refusesUpdates

namespace Resembles

theorem symm (resembles : store.Resembles after) : after.Resembles store :=
  ⟨resembles.channels.symm, resembles.refusesUpdates.symm⟩

theorem trans {first second third : ChannelStore} (before : first.Resembles second)
    (behind : second.Resembles third) : first.Resembles third :=
  ⟨behind.channels.trans before.channels, behind.refusesUpdates.trans before.refusesUpdates⟩

theorem exists_twin (resembles : store.Resembles after) {channel : Channel}
    (member : channel ∈ store.channels.rows) :
    ∃ held ∈ after.channels.rows, held.unstamped = channel.unstamped := by
  have listed := List.mem_map_of_mem (f := Channel.unstamped) member
  rw [← resembles.channels] at listed
  exact List.mem_map.mp listed

theorem refuses (resembles : store.Resembles after) (refused : store.refuses id finding = true) :
    after.refuses id finding = true := by
  rw [refuses_eq_true_iff] at refused ⊢
  rcases refused with updates | absent | ⟨shortId, named, holder, member, apart, taken⟩
  · exact Or.inl (resembles.refusesUpdates.trans updates)
  · refine Or.inr (Or.inl fun held present => ?_)
    rcases resembles.symm.exists_twin present with ⟨channel, member, same⟩
    rw [← (Channel.eq_of_unstamped same).1]
    exact absent channel member
  · rcases resembles.exists_twin member with ⟨held, present, same⟩
    rcases Channel.eq_of_unstamped same with ⟨sameId, sameName⟩
    exact Or.inr (Or.inr ⟨shortId, named, held, present, sameId ▸ apart, sameName.trans taken⟩)

theorem settles (resembles : store.Resembles after) (settles : store.Settles id finding) :
    after.Settles id finding := by
  rcases settles with refused | isIn
  · exact Or.inl (resembles.refuses refused)
  · refine Or.inr fun held present named => ?_
    rcases resembles.symm.exists_twin present with ⟨channel, member, same⟩
    have entered := isIn channel member ((Channel.eq_of_unstamped same).1.trans named)
    rw [Finding.IsIn, same] at entered
    exact entered

/-- A finding that changes nothing can be offered to the store. -/
theorem advance {channel : Channel} {asked : Inquiry}
    (settles : ∀ finding, verifier.finding? channel asked = some finding →
      store.Settles channel.id finding) :
    store.Resembles (verifier.advance now store (channel, asked)) := by
  rcases verifier.advance_cases now store channel asked with
    ⟨_, same⟩ | ⟨finding, found, enters, left⟩
  · rw [same]
    exact ⟨rfl, rfl⟩
  · rcases settles finding found with refused | isIn
    · rw [refused] at enters
      cases enters
    · rw [left]
      refine ⟨?_, rfl⟩
      show (store.channels.rows.map _).map _ = _
      rw [List.map_map]
      refine List.map_congr_left fun held member => ?_
      show Channel.unstamped (if held.id = channel.id then finding.enter now held else held) = _
      split
      · rename_i named
        rw [Finding.unstamped_enter]
        exact isIn held member named
      · rfl

theorem foldl (settles : ∀ inquiry ∈ inquiries, ∀ finding,
      verifier.finding? inquiry.1 inquiry.2 = some finding →
        store.Settles inquiry.1.id finding) :
    store.Resembles (inquiries.foldl (verifier.advance now) store) := by
  induction inquiries generalizing store with
  | nil => exact ⟨rfl, rfl⟩
  | cons inquiry inquiries ih =>
    rcases List.forall_mem_cons.mp settles with ⟨first, others⟩
    have once : store.Resembles (verifier.advance now store inquiry) := advance first
    have further : (verifier.advance now store inquiry).Resembles
        (inquiries.foldl (verifier.advance now) (verifier.advance now store inquiry)) := by
      apply ih
      intro other member finding found
      exact once.settles (others other member finding found)
    exact once.trans further

end Resembles

end ChannelStore

namespace Verifier

variable {verifier : Verifier} {now : Timestamp} {store : ChannelStore}

/-- What a sweep would ask after another one, that one has asked as well. -/
theorem exists_earlier {channel : Channel} {inquiry : Inquiry}
    (again : (channel, inquiry) ∈
      (store.inquiries.foldl (verifier.advance now) store).inquiries) :
    ∃ earlier, (earlier, inquiry) ∈ store.inquiries ∧ channel.id = earlier.id ∧
      inquiry.lookup channel = inquiry.lookup earlier := by
  rcases ChannelStore.mem_inquiries.mp again with ⟨present, needed⟩
  have answered : store.Answered (store.inquiries.map Inquiry.key)
      (store.inquiries.foldl (verifier.advance now) store) :=
    .foldl fun _ member => List.mem_map_of_mem member
  rcases answered.source channel present with ⟨earlier, member, answered⟩
  refine ⟨earlier, ?_, answered.id, answered.lookup inquiry⟩
  by_cases listed : (earlier.id, inquiry) ∈ store.inquiries.map Inquiry.key
  · rcases List.mem_map.mp listed with ⟨⟨other, asked⟩, made, same⟩
    cases (Prod.mk.inj same).2
    have only : other = earlier := Table.eq_of_mem_of_idOf (ChannelStore.mem_inquiries.mp made).1
      member (Prod.mk.inj same).1
    exact only ▸ made
  · exact ChannelStore.mem_inquiries.mpr
      ⟨member, (answered.isNeeded inquiry listed).symm.trans needed⟩

variable {node : NodeSettings}

/-- A sweep asks the service nothing if no channel needs anything, and only then. -/
theorem asks_nothing_iff (verifier : Verifier) (now : Timestamp) (store : ChannelStore)
    (mainnet : node.isBitcoinMainnet = true) :
    (∀ passage ∈ (Sweep.run now node).passages verifier.handler store, ∀ lookup : Lookup,
        passage.request ≠ lookup.call) ↔
      store.inquiries = [] := by
  rw [passages_run mainnet]
  constructor
  · intro silent
    cases listed : store.inquiries with
    | nil => rfl
    | cons inquiry inquiries =>
      rcases inquiry with ⟨channel, asked⟩
      rw [listed, rounds_cons, List.flatMap_cons, Round.passages] at silent
      -- the question of the first round comes right after the list
      exact absurd rfl (silent _ (List.mem_cons_of_mem _ List.mem_cons_self) (asked.lookup channel))
  · intro none passage made lookup
    rw [none] at made
    rw [List.mem_singleton.mp made]
    exact (lookup.call_ne_store _).symm

/-- All exchanges of a sweep are conclusive if and only if no channel needs anything after it. -/
theorem isConclusive_run_iff (verifier : Verifier) (now : Timestamp) (store : ChannelStore)
    (mainnet : node.isBitcoinMainnet = true) :
    (∀ passage ∈ (Sweep.run now node).passages verifier.handler store,
        passage.isConclusive = true) ↔
      (verifier.sweep now node store).inquiries = [] := by
  have rounds : (∀ passage ∈ (Sweep.run now node).passages verifier.handler store,
        passage.isConclusive = true) ↔
      ∀ round ∈ Sweep.rounds verifier.handler now store.inquiries store,
        ∀ passage ∈ round.passages, passage.isConclusive = true := by
    rw [passages_run mainnet, List.forall_mem_cons]
    constructor
    · exact fun all round made passage member =>
        all.2 passage (List.mem_flatMap.mpr ⟨round, made, member⟩)
    · refine fun all => ⟨rfl, fun passage made => ?_⟩
      rcases List.mem_flatMap.mp made with ⟨round, made, member⟩
      exact all round made passage member
  rw [rounds, store.awaits_inquiries.isConclusive_rounds_iff, sweep_eq_foldl mainnet,
    List.eq_nil_iff_forall_not_mem]
  constructor
  · rintro needless ⟨channel, asked⟩ again
    rcases exists_earlier again with ⟨earlier, made, same, _⟩
    rcases ChannelStore.mem_inquiries.mp again with ⟨present, needed⟩
    exact needless _ made ⟨channel, present, same, needed⟩
  · rintro nothing ⟨channel, asked⟩ made ⟨held, present, _, needed⟩
    exact nothing (held, asked) (ChannelStore.mem_inquiries.mpr ⟨present, needed⟩)

/-- After a sweep the findings of another one change nothing but instants of last changes. -/
theorem resembles_sweep (verifier : Verifier) (first second : Timestamp) (store : ChannelStore)
    (mainnet : node.isBitcoinMainnet = true) :
    (verifier.sweep first node store).Resembles
      (verifier.sweep second node (verifier.sweep first node store)) := by
  have further : verifier.sweep second node (verifier.sweep first node store) = _ :=
    sweep_eq_foldl mainnet
  rw [further]
  apply ChannelStore.Resembles.foldl
  rintro ⟨channel, asked⟩ again finding found
  rw [sweep_eq_foldl mainnet] at again ⊢
  rcases exists_earlier again with ⟨earlier, made, same, lookup⟩
  rw [finding?_congr lookup] at found
  dsimp only
  rw [same]
  exact store.awaits_inquiries.settles made found

/-- Whatever the store holds and a steady service answers: a second sweep leaves every channel as
the first one has left it, apart from the instant of its last change.  And it asks the service
nothing if and only if all exchanges of the first one were conclusive: every transaction was
confirmed with both of its instants, every short identifier was told, and every write succeeded.
That is the case if and only if no channel needs anything any more. -/
theorem sweep_twice (verifier : Verifier) (first second : Timestamp) (node : NodeSettings)
    (store : ChannelStore) (mainnet : node.isBitcoinMainnet = true) :
    let once := verifier.sweep first node store
    let twice := verifier.sweep second node once
    twice.channels.rows.map Channel.unstamped = once.channels.rows.map Channel.unstamped ∧
      ((∀ passage ∈ (Sweep.run second node).passages verifier.handler once, ∀ lookup : Lookup,
          passage.request ≠ lookup.call) ↔
        ∀ passage ∈ (Sweep.run first node).passages verifier.handler store,
          passage.isConclusive = true) ∧
      ((∀ passage ∈ (Sweep.run first node).passages verifier.handler store,
          passage.isConclusive = true) ↔
        once.inquiries = []) := by
  intro once twice
  have silent := asks_nothing_iff verifier second once mainnet
  have settled := isConclusive_run_iff verifier first store mainnet
  exact ⟨(resembles_sweep verifier first second store mainnet).channels,
    silent.trans settled.symm, settled⟩

/-- A service that tells the same short identifier for every channel. -/
def repeating : Verifier where
  details hash := .ok ⟨hash, 700, some .epoch, some .epoch⟩
  shortChannelId _ _ := .ok (some ⟨700, 1, 0⟩)

/-- Two open channels of which nothing is known. -/
def twins : ChannelStore :=
  ChannelDeed.applyAll .empty
    [.call (.ensureChannel (.ofPoint "ab:0" .open .epoch)),
      .call (.ensureChannel (.ofPoint "cd:1" .open .epoch))]

/-- Of two channels with one short identifier the second goes without it, and the next sweep asks
for it again and changes nothing. -/
theorem sweep_twice_twins :
    (repeating.sweep .epoch .standard twins).inquiries.map Inquiry.key =
        [(⟨2⟩, .shortChannelId)] ∧
      (repeating.sweep ⟨60, 0⟩ .standard
          (repeating.sweep .epoch .standard twins)).channels.rows.map Channel.unstamped =
        (repeating.sweep .epoch .standard twins).channels.rows.map Channel.unstamped ∧
      ¬ ∀ passage ∈ (Sweep.run ⟨60, 0⟩ .standard).passages repeating.handler
          (repeating.sweep .epoch .standard twins),
        ∀ lookup : Lookup, passage.request ≠ lookup.call := by
  have left : (repeating.sweep .epoch .standard twins).inquiries.map Inquiry.key =
      [(⟨2⟩, .shortChannelId)] := by decide +kernel
  rcases sweep_twice repeating .epoch ⟨60, 0⟩ .standard twins rfl with ⟨same, silent, settled⟩
  refine ⟨left, same, fun quiet => ?_⟩
  rw [settled.mp (silent.mp quiet)] at left
  cases left

end Verifier

end NodeSteward
