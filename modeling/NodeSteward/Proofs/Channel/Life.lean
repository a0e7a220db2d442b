import NodeSteward.Proofs.Channel.Change

/-!
# Channels only move forward

A life has four stages: opening, open, closing and closed.  Every status to which a channel may
move lies in a later stage, so that a channel moves at most three times, and a closed one never.
A call that respects this can be late and be refused, but it cannot turn a channel back; neither
can it replace a closing transaction that is known.  What holds for one call holds for all that
happens between two moments, whoever made the calls.
-/

namespace NodeSteward

namespace ChannelStatus

variable {current next : ChannelStatus}

/-- How far in its life a channel is. -/
def stage : ChannelStatus → Nat
  | .opening => 0
  | .open => 1
  | .closing => 2
  | _ => 3

theorem stage_le (status : ChannelStatus) : status.stage ≤ 3 := by
  cases status <;> decide

theorem isTerminal_iff_stage : current.isTerminal = true ↔ current.stage = 3 := by
  cases current <;> decide

theorem canBecome_self (status : ChannelStatus) : status.canBecome status = true := by
  simp [canBecome]

theorem stage_lt_of_canBecome (may : current.canBecome next = true) (different : next ≠ current) :
    current.stage < next.stage := by
  revert may different
  cases current <;> cases next <;> decide

end ChannelStatus

/-- A call that changes a status, if at all, to one to which it may change. -/
def ChannelCall.Orderly : ChannelCall → Prop
  | changeStatus _ _ change => change.source.canBecome change.target = true
  | _ => True

namespace Channel

/-- How a channel may be found at a later moment. -/
structure Later (channel held : Channel) : Prop where
  point : held.point = channel.point
  status : held.status = channel.status ∨ channel.status.stage < held.status.stage
  closingHash : ∀ hash, channel.closingHash = some hash → held.closingHash = some hash

namespace Later

theorem refl (channel : Channel) : channel.Later channel :=
  ⟨rfl, Or.inl rfl, fun _ known => known⟩

theorem trans {first second third : Channel} (before : first.Later second)
    (behind : second.Later third) : first.Later third where
  point := behind.point.trans before.point
  status := by
    rcases before.status with same | further
    · rw [← same]
      exact behind.status
    · rcases behind.status with again | more
      · rw [again]
        exact Or.inr further
      · exact Or.inr (Nat.lt_trans further more)
  closingHash hash known := behind.closingHash hash (before.closingHash hash known)

variable {channel held : Channel}

theorem stage_le (later : channel.Later held) : channel.status.stage ≤ held.status.stage := by
  rcases later.status with same | further
  · exact Nat.le_of_eq (congrArg ChannelStatus.stage same.symm)
  · exact Nat.le_of_lt further

/-- A closed channel stays as it was closed. -/
theorem status_of_isTerminal (later : channel.Later held)
    (closed : channel.status.isTerminal = true) : held.status = channel.status := by
  rcases later.status with same | further
  · exact same
  · rw [ChannelStatus.isTerminal_iff_stage.mp closed] at further
    exact absurd held.status.stage_le (Nat.not_le_of_lt further)

end Later

variable {channel written : Channel} {request : ChannelCall}

/-- What an orderly call writes follows the order of the statuses. -/
theorem Rewrites.canBecome (rewrites : Rewrites request channel written)
    (orderly : request.Orderly) : channel.status.canBecome written.status = true := by
  cases rewrites with
  | confirmed _ now transaction confirmation =>
    cases transaction <;> exact ChannelStatus.canBecome_self _
  | named => exact ChannelStatus.canBecome_self _
  | moved now change applies =>
    rcases applyStatusChange?_eq_some_iff.mp applies with ⟨starts, rfl⟩
    rw [starts]
    exact orderly

/-- No call replaces a closing transaction that is known. -/
theorem Rewrites.closingHash (rewrites : Rewrites request channel written) {hash : String}
    (known : channel.closingHash = some hash) : written.closingHash = some hash := by
  cases rewrites with
  | confirmed _ now transaction confirmation => cases transaction <;> exact known
  | named => exact known
  | moved now change applies =>
    rw [(applyStatusChange?_eq_some_iff.mp applies).2]
    simp [known]

theorem Rewrites.later (rewrites : Rewrites request channel written)
    (orderly : request.Orderly) : channel.Later written where
  point := rewrites.point
  status := Decidable.or_iff_not_imp_left.mpr
    (ChannelStatus.stage_lt_of_canBecome (rewrites.canBecome orderly))
  closingHash _ known := rewrites.closingHash known

end Channel

namespace ChannelStore

variable {before after : ChannelStore}

/-- The store has moved on: a sound one still is sound, and its channels are later in their
lives. -/
def Forward (before after : ChannelStore) : Prop :=
  before.Sound → after.Sound ∧ before.Each Channel.Later after

theorem Forward.refl (store : ChannelStore) : store.Forward store :=
  fun sound => ⟨sound, Each.refl store Channel.Later.refl⟩

theorem Forward.trans {first second third : ChannelStore} (one : first.Forward second)
    (other : second.Forward third) : first.Forward third := by
  intro sound
  rcases one sound with ⟨soundNow, later⟩
  rcases other soundNow with ⟨soundThen, furtherOn⟩
  exact ⟨soundThen, later.trans Channel.Later.trans furtherOn⟩

theorem forward_of_orderly {request : ChannelCall} (orderly : request.Orderly)
    (store : ChannelStore) : store.Forward (handler request store).2 := by
  intro sound
  refine ⟨sound.of_handler request, ((handler_changes request store).each sound).mono ?_⟩
  rintro channel held (rfl | rewrites)
  · exact .refl _
  · exact rewrites.later orderly

/-- A channel is found again under its channel point. -/
theorem Forward.channelAt? (forward : before.Forward after) (sound : before.Sound)
    {point : String} {channel : Channel} (found : before.channelAt? point = some channel) :
    ∃ held, after.channelAt? point = some held ∧ channel.Later held := by
  rcases forward sound with ⟨soundNow, each⟩
  rcases sound.channelAt?_eq_some_iff.mp found with ⟨member, filed⟩
  rcases each channel member with ⟨held, present, _, later⟩
  exact ⟨held, soundNow.channelAt?_eq_some_iff.mpr ⟨present, later.point.trans filed⟩, later⟩

end ChannelStore

end NodeSteward
