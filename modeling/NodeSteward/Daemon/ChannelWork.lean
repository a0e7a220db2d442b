import NodeSteward.Channel.Intake
import NodeSteward.Channel.Rehearsal
import NodeSteward.Config.Settings

/-!
# Keeping the records of channels up to date

The daemon first takes over the channels that the node lists, the open ones and then the closed
ones; a listing that fails is given up.  Then it records the updates of a subscription.
Meanwhile it stores the transactions of the wallet and reconciles channels with the chain.
These tasks touch different tables of the store, or do so at different times, and so the order
in which they are followed here makes no difference.
-/

namespace NodeSteward

/-- What the Lightning node lists and delivers. -/
structure NodeScript where
  openChannels : Except RpcError Listing
  closedChannels : Except RpcError Listing
  transactions : Except RpcError (List Transaction)
  updateStreams : List (Attempt ChannelUpdate)
  transactionStreams : List (Attempt Transaction)

namespace ChannelWork

variable {σ : Type}

/-- Where everything stands after some time. -/
structure Report (σ : Type) where
  state : σ
  /-- The instants of the subscriptions to channel updates. -/
  updateAttempts : List Nat
  /-- The instants of the subscriptions to transactions. -/
  transactionAttempts : List Nat

/-- A subscription that is about to start, under the standard limit. -/
def fresh {τ : Type} (state : τ) : Following τ where
  state
  limiter := .fresh .standard
  now := 0
  attempts := []
  permits := []

/-- Takes a listing over and goes on whatever comes of it. -/
def takeOver (stage : Stage σ) (listed : Except RpcError Listing) (state : σ × List Fact) :
    σ × List Fact :=
  ((Listing.importAll stage.patience stage.clock listed).run.run
    (IngestCall.handler stage.store true) state).2

/-- Runs the tasks until `stop`. -/
def run (stage : Stage σ) (settings : MaintenanceSettings) (node : NodeScript) (stop : Nat)
    (state : σ) : Report σ :=
  let sweeping :=
    { stage with
      script := .silent
      delay := Timer.ofMillis settings.verificationDelayMillis.toNat }
  let listed := takeOver stage node.closedChannels (takeOver stage node.openChannels (state, []))
  let updates := (ChannelUpdate.follow stage.store true stage.patience stage.clock stage.timing
    node.updateStreams (fresh listed)).2
  let transactions := (Transaction.follow stage.store stage.timing node.transactions
    node.transactionStreams (fresh updates.state.1)).2
  let swept := (Rehearsal.start transactions.state 0).patrol sweeping
    (Timer.ofSeconds settings.tick) stop
  ⟨swept.state, updates.attempts, transactions.attempts⟩

end ChannelWork

end NodeSteward
