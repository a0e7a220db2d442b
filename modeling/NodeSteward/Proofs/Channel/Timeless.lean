import NodeSteward.Proofs.Channel.Hearing

/-!
# Recordings do not depend on the clock

The instant of a recording is written down in the event and in the channel, and is not looked at.
So a store whose instants are erased goes the same way: each operation commutes with the erasure,
and hence so do recordings and imports.  Two stores that differ in their instants only are led to
such stores by the same reports, whenever these are recorded.
-/

namespace NodeSteward

namespace Table

variable {kind : IdKind} {ρ : Type} [Filed kind ρ] {change : ρ → ρ}

theorem eq_of_rows {first second : Table ρ} (same : first.rows = second.rows) : first = second := by
  rcases first with ⟨rows, _⟩
  subst same
  rfl

/-- The table with every record changed; the change keeps identifiers. -/
def mapRows (table : Table ρ) (change : ρ → ρ)
    (keeps : ∀ row, Filed.idOf (change row) = Filed.idOf row) : Table ρ where
  rows := table.rows.map change
  ascending := by
    refine List.pairwise_map.mpr (table.ascending.imp ?_)
    intro earlier later before
    rw [keeps, keeps]
    exact before

theorem map_insertRow (keeps : ∀ row, Filed.idOf (change row) = Filed.idOf row) (row : ρ)
    (rows : List ρ) :
    (insertRow row rows).map change = insertRow (change row) (rows.map change) := by
  induction rows with
  | nil => rfl
  | cons held rows ih =>
    rw [List.map_cons, insertRow, insertRow, keeps, keeps]
    split
    · rfl
    split
    · rfl
    · rw [List.map_cons, ih]

theorem mapRows_insert (table : Table ρ)
    (keeps : ∀ row, Filed.idOf (change row) = Filed.idOf row) (row : ρ) :
    (table.insert row).mapRows change keeps = (table.mapRows change keeps).insert (change row) :=
  eq_of_rows (map_insertRow keeps row table.rows)

theorem mapRows_modify (table : Table ρ)
    (keeps : ∀ row, Filed.idOf (change row) = Filed.idOf row) {write other : ρ → ρ}
    (writeKeeps : ∀ row, Filed.idOf (write row) = Filed.idOf row)
    (otherKeeps : ∀ row, Filed.idOf (other row) = Filed.idOf row)
    (commutes : ∀ row, change (write row) = other (change row)) (id : Id kind) :
    (table.modify id write writeKeeps).mapRows change keeps =
      (table.mapRows change keeps).modify id other otherKeeps := by
  refine eq_of_rows ?_
  simp only [mapRows, modify, List.map_map]
  refine List.map_congr_left fun row _ => ?_
  rw [Function.comp_apply, Function.comp_apply, keeps, apply_ite change, commutes]

end Table

/-- The channel without the instants of its creation and of its last change. -/
def Channel.timeless (channel : Channel) : Channel :=
  { channel with createdOn := .epoch, updatedOn := .epoch }

theorem Channel.idOf_timeless (channel : Channel) :
    (Filed.idOf channel.timeless : ChannelId) = Filed.idOf channel :=
  rfl

def NewChannel.timeless (channel : NewChannel) : NewChannel :=
  { channel with createdOn := .epoch }

def ChannelEvent.timeless (event : ChannelEvent) : ChannelEvent :=
  { event with time := .epoch }

/-- The store without the instants of channels and events. -/
def ChannelStore.timeless (store : ChannelStore) : ChannelStore :=
  { store with
    channels := store.channels.mapRows Channel.timeless Channel.idOf_timeless
    events := store.events.map ChannelEvent.timeless }

/-- What a change of status makes of a channel at an instant. -/
def Channel.moved (now : Timestamp) (change : StatusChange) (channel : Channel) : Channel :=
  { ((channel.applyStatusChange? change).getD channel) with id := channel.id, updatedOn := now }

theorem Channel.applyStatusChange?_timeless (channel : Channel) (change : StatusChange) :
    channel.timeless.applyStatusChange? change =
      (channel.applyStatusChange? change).map Channel.timeless := by
  unfold applyStatusChange?
  split
  · rename_i starts
    rw [if_pos (show channel.status = change.source from starts), Option.map_some]
    cases held : channel.closingHash <;> simp [timeless, held]
  · rename_i elsewhere
    rw [if_neg (show ¬ channel.status = change.source from elsewhere)]
    rfl

theorem Channel.idOf_moved (now : Timestamp) (change : StatusChange) (channel : Channel) :
    (Filed.idOf (channel.moved now change) : ChannelId) = Filed.idOf channel :=
  rfl

theorem Channel.timeless_moved (now : Timestamp) (change : StatusChange) (channel : Channel) :
    (channel.moved now change).timeless = channel.timeless.moved .epoch change := by
  rw [moved, moved, applyStatusChange?_timeless]
  cases channel.applyStatusChange? change <;> rfl

theorem ChannelEvent.ofUpdate_timeless (update : ChannelUpdate) (imported : Bool)
    (now : Timestamp) :
    ofUpdate update imported .epoch = (ofUpdate update imported now).map ChannelEvent.timeless := by
  rw [ofUpdate, ofUpdate]
  cases update.point <;> rfl

theorem ChannelUpdate.channel?_timeless (update : ChannelUpdate) (now : Timestamp) :
    update.channel? .epoch = (update.channel? now).map NewChannel.timeless := by
  cases update <;> rfl

namespace ChannelStore

variable {store first second : ChannelStore}

/-! ## Operations commute with the erasure -/

theorem channelAt?_timeless (store : ChannelStore) (point : String) :
    store.timeless.channelAt? point = (store.channelAt? point).map Channel.timeless :=
  List.find?_map

theorem shortIdTaken_timeless (store : ChannelStore) (id : Option ShortChannelId)
    (except : ChannelId) : store.timeless.shortIdTaken id except = store.shortIdTaken id except :=
  congrArg (id.isSome && ·) List.any_map

section Inserting

variable {wanted : NewChannel} (missing : store.channelAt? wanted.point = none)

include missing in
/-- A channel whose short identifier is free gets the next identifier. -/
theorem ensureChannel_of_free
    (free : store.shortIdTaken wanted.shortChannelId ⟨(store.issued : Int) + 1⟩ = false) :
    store.ensureChannel wanted =
      (.ok (wanted.withId ⟨(store.issued : Int) + 1⟩),
        { store with
          issued := store.issued + 1
          channels := store.channels.insert (wanted.withId ⟨(store.issued : Int) + 1⟩) }) := by
  rw [ensureChannel, missing]
  dsimp only
  split
  · rename_i id named
    have given : wanted.shortChannelId = some id := named
    rw [given] at free
    exact if_neg (Bool.eq_false_iff.mp free)
  · rfl

include missing in
/-- A channel whose short identifier is taken uses an identifier up. -/
theorem ensureChannel_of_taken {id : ShortChannelId} (named : wanted.shortChannelId = some id)
    (taken : store.shortIdTaken (some id) ⟨(store.issued : Int) + 1⟩ = true) :
    store.ensureChannel wanted =
      (.error (.constraintViolation "ensure_channel" ("short_channel_id=Some(" ++ id.named ++ ")")),
        { store with issued := store.issued + 1 }) := by
  rw [ensureChannel, missing]
  dsimp only
  split
  · rename_i other given
    cases named.symm.trans given
    exact if_pos taken
  · rename_i given
    cases named.symm.trans given

end Inserting

theorem ensureChannel_timeless (store : ChannelStore) (wanted : NewChannel) :
    store.timeless.ensureChannel wanted.timeless =
      ((store.ensureChannel wanted).1.map Channel.timeless,
        (store.ensureChannel wanted).2.timeless) := by
  have looked : store.timeless.channelAt? wanted.timeless.point =
    (store.channelAt? wanted.point).map Channel.timeless := channelAt?_timeless store wanted.point
  cases found : store.channelAt? wanted.point with
  | some held =>
    rw [found] at looked
    rw [ensureChannel_of_found found, ensureChannel_of_found looked]
    rfl
  | none =>
    rw [found] at looked
    have same : store.timeless.shortIdTaken wanted.timeless.shortChannelId
        ⟨(store.timeless.issued : Int) + 1⟩ =
      store.shortIdTaken wanted.shortChannelId ⟨(store.issued : Int) + 1⟩ :=
        shortIdTaken_timeless _ _ _
    cases taken : store.shortIdTaken wanted.shortChannelId ⟨(store.issued : Int) + 1⟩ with
    | false =>
      rw [taken] at same
      rw [ensureChannel_of_free found taken, ensureChannel_of_free looked same]
      refine Prod.ext rfl ?_
      rw [timeless, timeless]
      dsimp only
      rw [Table.mapRows_insert]
      rfl
    | true =>
      cases named : wanted.shortChannelId with
      | none =>
        rw [named] at taken
        cases taken
      | some id =>
        have namedToo : wanted.timeless.shortChannelId = some id := named
        rw [namedToo, named] at same
        rw [named] at taken
        rw [ensureChannel_of_taken found named taken,
          ensureChannel_of_taken looked namedToo (same.trans taken)]
        rfl

theorem changeStatus_timeless (store : ChannelStore) (now : Timestamp) (point : String)
    (change : StatusChange) :
    store.timeless.changeStatus .epoch point change =
      ((store.changeStatus now point change).1,
        (store.changeStatus now point change).2.timeless) := by
  have same : store.timeless.refusesUpdates = store.refusesUpdates := rfl
  rw [changeStatus, changeStatus, same, channelAt?_timeless]
  split
  · rfl
  cases store.channelAt? point with
  | none => rfl
  | some channel =>
    dsimp only [Option.map_some]
    rw [Channel.applyStatusChange?_timeless]
    cases channel.applyStatusChange? change with
    | none => rfl
    | some moved =>
      have moves := Table.mapRows_modify store.channels Channel.idOf_timeless
        (Channel.idOf_moved now change) (Channel.idOf_moved .epoch change)
        (Channel.timeless_moved now change) channel.id
      exact congrArg (fun channels =>
        (Except.ok true, { store.timeless with channels := channels })) moves.symm

theorem timeless_note (store : ChannelStore) (event : ChannelEvent) :
    (store.note event).timeless = store.timeless.note event.timeless := by
  rw [timeless, note, note, timeless, List.map_append]
  rfl

theorem timeless_lead (store : ChannelStore) (now : Timestamp) (wanted : NewChannel)
    (stored : Channel) :
    (store.lead now wanted stored).timeless =
      store.timeless.lead .epoch wanted.timeless stored.timeless := by
  have settled : stored.timeless.SettledFor wanted.timeless.status ↔
      stored.SettledFor wanted.status := Iff.rfl
  rw [lead, lead, if_congr settled rfl rfl]
  split
  · rfl
  · exact (congrArg Prod.snd (changeStatus_timeless store now wanted.point _)).symm

/-- A recording on a store without instants. -/
theorem hear_timeless (store : ChannelStore) (now : Timestamp) (update : ChannelUpdate)
    (imported : Bool) :
    store.timeless.hear .epoch update imported =
      ((store.hear now update imported).1, (store.hear now update imported).2.timeless) := by
  have noted := ChannelEvent.ofUpdate_timeless update imported now
  have asked := update.channel?_timeless now
  cases shown : ChannelEvent.ofUpdate update imported now with
  | error cause =>
    rw [shown] at noted
    rw [hear_of_unshown shown, hear_of_unshown noted]
  | ok event =>
    rw [shown] at noted
    cases asks : update.channel? now with
    | none =>
      rw [asks] at asked
      rw [hear_of_none shown asks, hear_of_none noted asked, timeless_note]
    | some wanted =>
      rw [asks] at asked
      have ensures := ensureChannel_timeless store wanted
      rcases ensured : store.ensureChannel wanted with ⟨cause | stored, after⟩
      · have refused : (store.ensureChannel wanted).1 = .error cause := congrArg Prod.fst ensured
        have refusedToo : (store.timeless.ensureChannel wanted.timeless).1 = .error cause := by
          rw [ensures, refused]
          rfl
        rw [hear_of_refused shown asks refused, hear_of_refused noted asked refusedToo, ensures]
      · rw [ensured] at ensures
        rw [hear_of_ensured shown asks ensured, hear_of_ensured noted asked ensures, timeless_note,
          timeless_lead]

theorem hearEntries_timeless (now : Timestamp) (seen : List String)
    (entries : List (String × ChannelUpdate)) (store : ChannelStore) :
    hearEntries .epoch seen entries store.timeless =
      ((hearEntries now seen entries store).1,
        (hearEntries now seen entries store).2.timeless) := by
  induction entries generalizing seen store with
  | nil => rfl
  | cons entry entries ih =>
    rcases entry with ⟨point, update⟩
    by_cases known : point ∈ seen
    · rw [hearEntries_of_mem known, hearEntries_of_mem known]
      exact ih seen store
    · have same := hear_timeless store now update true
      rcases heard : store.hear now update true with ⟨cause | _, after⟩
      · rw [heard] at same
        rw [hearEntries_of_error known heard, hearEntries_of_error known same]
      · rw [heard] at same
        rw [hearEntries_of_ok known heard, hearEntries_of_ok known same, ih]

variable (alike : first.timeless = second.timeless) (earlier later : Timestamp)

include alike in
theorem hear_alike (update : ChannelUpdate) (imported : Bool) :
    (first.hear earlier update imported).1 = (second.hear later update imported).1 ∧
      (first.hear earlier update imported).2.timeless =
        (second.hear later update imported).2.timeless := by
  have same := hear_timeless first earlier update imported
  rw [alike, hear_timeless second later, Prod.mk.injEq] at same
  exact ⟨same.1.symm, same.2.symm⟩

include alike in
theorem hearEntries_alike (seen : List String) (entries : List (String × ChannelUpdate)) :
    (hearEntries earlier seen entries first).1 = (hearEntries later seen entries second).1 ∧
      (hearEntries earlier seen entries first).2.timeless =
        (hearEntries later seen entries second).2.timeless := by
  have same := hearEntries_timeless earlier seen entries first
  rw [alike, hearEntries_timeless later, Prod.mk.injEq] at same
  exact ⟨same.1.symm, same.2.symm⟩

end ChannelStore

end NodeSteward
