import NodeSteward.Proofs.Channel.Jobs

/-!
# What interleaved jobs leave of each other's work

Jobs read a channel in one turn and write it in a later one, with any number of turns of others in
between.  Nevertheless a channel only moves forward in its life, and its closing transaction, once
known, stays.  Sweeps write what they find on the chain, recordings write what the node reports,
and neither undoes what the other one wrote.

The two share one column, the height of the closing transaction.  A change of status writes it only
together with the closing transaction, where none is known; a sweep confirms a closing transaction
only where one is known.  So from the first confirmation on the column belongs to the sweeps.
-/

namespace NodeSteward

namespace Channel

/-- What the node reports about a channel is the same. -/
structure SameLife (channel held : Channel) : Prop where
  status : held.status = channel.status
  closingHash : held.closingHash = channel.closingHash

/-- What only sweeps find out about a channel is the same, and its funding outpoint. -/
structure SameOnChain (channel held : Channel) : Prop where
  fundingHash : held.fundingHash = channel.fundingHash
  fundingOutput : held.fundingOutput = channel.fundingOutput
  fundingHeight : held.fundingHeight = channel.fundingHeight
  fundingTransactionOn : held.fundingTransactionOn = channel.fundingTransactionOn
  fundedOn : held.fundedOn = channel.fundedOn
  closingTransactionOn : held.closingTransactionOn = channel.closingTransactionOn
  closedOn : held.closedOn = channel.closedOn
  shortChannelId : held.shortChannelId = channel.shortChannelId

theorem SameLife.refl (channel : Channel) : channel.SameLife channel :=
  ⟨rfl, rfl⟩

theorem SameOnChain.refl (channel : Channel) : channel.SameOnChain channel :=
  ⟨rfl, rfl, rfl, rfl, rfl, rfl, rfl, rfl⟩

namespace Rewrites

variable {request : ChannelCall} {channel written : Channel} {store : ChannelStore}

/-- A sweep does not touch what the node reports. -/
theorem sameLife (rewrites : Rewrites request channel written) (sweeps : request.Sweeps store) :
    channel.SameLife written := by
  cases rewrites with
  | confirmed _ now transaction confirmation => cases transaction <;> exact ⟨rfl, rfl⟩
  | named => exact ⟨rfl, rfl⟩
  | moved => exact sweeps.elim

/-- A recording does not touch what sweeps find out. -/
theorem sameOnChain (rewrites : Rewrites request channel written) (ingests : request.Ingests) :
    channel.SameOnChain written := by
  cases rewrites with
  | confirmed => exact ingests.elim
  | named => exact ingests.elim
  | moved now change applies =>
    rw [(applyStatusChange?_eq_some_iff.mp applies).2]
    exact ⟨rfl, rfl, rfl, rfl, rfl, rfl, rfl, rfl⟩

/-- A recording leaves the height of a known closing transaction. -/
theorem closingHeight (rewrites : Rewrites request channel written) (ingests : request.Ingests)
    {hash : String} (known : channel.closingHash = some hash) :
    written.closingHeight = channel.closingHeight := by
  cases rewrites with
  | confirmed => exact ingests.elim
  | named => exact ingests.elim
  | moved now change applies =>
    rw [(applyStatusChange?_eq_some_iff.mp applies).2]
    simp [known]

end Rewrites

end Channel

/-- The exchange recorded that the closing transaction of a channel was confirmed. -/
def Exchange.confirmsClosing {σ : Type} (id : ChannelId) : Exchange channelCalls σ → Bool
  | ⟨.recordConfirmation _ other .closing _, .ok (), _⟩ => other = id
  | _ => false

namespace ChannelStore

variable {store after : ChannelStore} {request : ChannelCall}

theorem Changes.each_sameLife (changes : store.Changes request after) (sound : store.Sound)
    (sweeps : request.Sweeps store) : store.Each Channel.SameLife after := by
  refine (changes.each sound).mono ?_
  rintro channel held (rfl | rewrites)
  · exact .refl _
  · exact rewrites.sameLife sweeps

theorem Changes.each_sameOnChain (changes : store.Changes request after) (sound : store.Sound)
    (ingests : request.Ingests) : store.Each Channel.SameOnChain after := by
  refine (changes.each sound).mono ?_
  rintro channel held (rfl | rewrites)
  · exact .refl _
  · exact rewrites.sameOnChain ingests

theorem Changes.each_closingHeight (changes : store.Changes request after) (sound : store.Sound)
    (ingests : request.Ingests) {id : ChannelId} (known : store.ClosingKnown id) :
    store.Each (fun channel held => channel.id = id →
      held.closingHeight = channel.closingHeight) after := by
  rcases known with ⟨reported, member, filed, hash, present⟩
  intro channel listed
  rcases changes.each sound channel listed with ⟨held, there, same, rfl | rewrites⟩
  · exact ⟨held, there, same, fun _ => rfl⟩
  · refine ⟨held, there, same, fun named => ?_⟩
    have only : channel = reported := Table.eq_of_mem_of_idOf listed member (named.trans filed.symm)
    subst only
    exact rewrites.closingHeight ingests present

theorem Changes.events_of_sweeps (changes : store.Changes request after)
    (sweeps : request.Sweeps store) : after.events = store.events := by
  rcases changes.events with same | ⟨event, rfl, _⟩
  · exact same
  · exact sweeps.elim

end ChannelStore

namespace ChannelJob

variable {deeds : List ChannelDeed} {jobs : List ChannelJob} {schedule : List Nat}

/-- Where a confirmation of a closing transaction was recorded, this transaction is known from then
on. -/
theorem closingKnown_of_confirmed {worker : Nat} {id : ChannelId}
    (confirmed : ((started deeds jobs).exchanges ChannelStore.handler worker schedule).any
      (Exchange.confirmsClosing id) = true) :
    (storeAfter deeds jobs schedule).ClosingKnown id := by
  rcases List.any_eq_true.mp confirmed with ⟨exchange, made, confirms⟩
  rcases discipline.of_mem_exchanges (fit_started deeds jobs) made with
    ⟨job, before, allowed, answered, since⟩
  have moved : before.Forward (storeAfter deeds jobs schedule) := by
    refine .trans ?_ since
    rw [answered]
    exact ChannelStore.forward_of_orderly allowed.orderly before
  refine closingKnown_of_forward moved allowed.1 ?_
  rcases exchange with ⟨request, answer, state⟩
  unfold Exchange.confirmsClosing at confirms
  split at confirms
  · rename_i same
    cases same
    rw [decide_eq_true_iff] at confirms
    subst confirms
    cases job with
    | sweep => exact allowed.2 rfl
    | _ => exact allowed.2.elim
  · cases confirms

/-- In each turn every channel keeps its status or moves to one to which it may move.  Over any
number of turns a closed channel keeps its status, and every channel a closing transaction that is
known. -/
theorem interleaved_channels_move_forward (deeds : List ChannelDeed) (jobs : List ChannelJob)
    (schedule : List Nat) :
    (∀ worker, (storeAfter deeds jobs schedule).Each
      (fun channel held => channel.status.canBecome held.status = true)
      (storeAfter deeds jobs (schedule ++ [worker]))) ∧
    ∀ later, (storeAfter deeds jobs schedule).Each
      (fun channel held =>
        (channel.status.isTerminal = true → held.status = channel.status) ∧
          ∀ hash, channel.closingHash = some hash → held.closingHash = some hash)
      (storeAfter deeds jobs (schedule ++ later)) := by
  have sound := sound_storeAfter deeds jobs schedule
  constructor
  · intro worker
    rcases storeAfter_turn deeds jobs schedule worker with idle | ⟨job, request, _, allowed, turn⟩
    · rw [idle]
      exact .refl _ fun channel => channel.status.canBecome_self
    · rw [turn]
      refine ((ChannelStore.handler_changes request _).each sound).mono ?_
      rintro channel held (rfl | rewrites)
      · exact held.status.canBecome_self
      · exact rewrites.canBecome allowed.orderly
  · intro later
    refine (forward_storeAfter deeds jobs schedule later sound).2.mono ?_
    intro channel held kept
    exact ⟨kept.status_of_isTerminal, kept.closingHash⟩

/-- In a turn of a sweep no channel changes its status or its closing transaction, and there is no
new event.  In a turn of another job no channel changes what sweeps find out about it, nor the
height of its closing transaction once a confirmation of that has been recorded. -/
theorem interleaved_sweeps_apart (deeds : List ChannelDeed) (jobs : List ChannelJob)
    (schedule : List Nat) (worker : Nat) (job : ChannelJob) (given : jobs[worker]? = some job) :
    (job.isSweep = true →
      (storeAfter deeds jobs schedule).Each Channel.SameLife
          (storeAfter deeds jobs (schedule ++ [worker])) ∧
        (storeAfter deeds jobs (schedule ++ [worker])).events =
          (storeAfter deeds jobs schedule).events) ∧
    (job.isSweep = false →
      (storeAfter deeds jobs schedule).Each Channel.SameOnChain
          (storeAfter deeds jobs (schedule ++ [worker])) ∧
        ∀ sweeper id,
          ((started deeds jobs).exchanges ChannelStore.handler sweeper schedule).any
            (Exchange.confirmsClosing id) = true →
          (storeAfter deeds jobs schedule).Each
            (fun channel held => channel.id = id → held.closingHeight = channel.closingHeight)
            (storeAfter deeds jobs (schedule ++ [worker]))) := by
  have sound := sound_storeAfter deeds jobs schedule
  rcases storeAfter_turn deeds jobs schedule worker with
    idle | ⟨other, request, named, allowed, turn⟩
  · rw [idle]
    refine ⟨fun _ => ⟨.refl _ Channel.SameLife.refl, rfl⟩,
      fun _ => ⟨.refl _ Channel.SameOnChain.refl, ?_⟩⟩
    exact fun _ _ _ => .refl _ fun _ _ => rfl
  · rw [given, Option.some_inj] at named
    subst named
    have changes := ChannelStore.handler_changes request (storeAfter deeds jobs schedule)
    rw [turn]
    cases job with
    | sweep outside now node =>
      refine ⟨fun _ => ?_, nofun⟩
      exact ⟨changes.each_sameLife sound allowed.2, changes.events_of_sweeps allowed.2⟩
    | _ =>
      refine ⟨nofun, fun _ => ⟨changes.each_sameOnChain sound allowed.2, ?_⟩⟩
      intro sweeper id confirmed
      exact changes.each_closingHeight sound allowed.2 (closingKnown_of_confirmed confirmed)

/-- A channel whose closing transaction became known while it was still closing. -/
def closingHistory : List ChannelDeed :=
  [.call (.ensureChannel (.ofPoint "ab:0" .open .epoch)),
    .call (.changeStatus .epoch "ab:0" ⟨.open, .closing, some "cd", none⟩)]

/-- A sweep, and the report that the channel was closed by another transaction. -/
def sweepAndClose : List ChannelJob :=
  [.sweep (.confirming 800) .epoch .standard,
    .record 3 .epoch (.closedAt "ab:0" "ef" 700 .cooperative) false]

/-- The report reads the channel before the sweep confirms the closing transaction, and changes its
status after that.  The last turns are one of each job. -/
theorem interleaved_sweeps_apart_late_close :
    sweepAndClose[1]? = some (.record 3 .epoch (.closedAt "ab:0" "ef" 700 .cooperative) false) ∧
      ((started closingHistory sweepAndClose).exchanges ChannelStore.handler 0 [0, 1, 0]).any
        (Exchange.confirmsClosing ⟨1⟩) = true ∧
      (storeAfter closingHistory sweepAndClose [0, 1, 0, 1]).channels.rows.map
        (fun channel => (channel.status, channel.closingHash, channel.closingHeight)) =
          [(.cooperativeClosed, some "cd", some 800)] ∧
      (storeAfter closingHistory sweepAndClose [0, 1]).Each Channel.SameLife
        (storeAfter closingHistory sweepAndClose [0, 1, 0]) ∧
      (storeAfter closingHistory sweepAndClose [0, 1, 0]).Each Channel.SameOnChain
        (storeAfter closingHistory sweepAndClose [0, 1, 0, 1]) ∧
      (storeAfter closingHistory sweepAndClose [0, 1, 0]).Each
        (fun channel held => channel.id = ⟨1⟩ → held.closingHeight = channel.closingHeight)
        (storeAfter closingHistory sweepAndClose [0, 1, 0, 1]) := by
  have confirmed : ((started closingHistory sweepAndClose).exchanges ChannelStore.handler 0
      [0, 1, 0]).any (Exchange.confirmsClosing ⟨1⟩) = true := by decide +kernel
  have swept := (interleaved_sweeps_apart closingHistory sweepAndClose [0, 1] 0 _ rfl).1 rfl
  have closed := (interleaved_sweeps_apart closingHistory sweepAndClose [0, 1, 0] 1 _ rfl).2 rfl
  exact ⟨rfl, confirmed, by decide +kernel, swept.1, closed.1, closed.2 0 ⟨1⟩ confirmed⟩

end ChannelJob

end NodeSteward
