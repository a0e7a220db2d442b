import NodeSteward.Channel.Listing
import NodeSteward.Channel.Subscription

/-!
# Taking in what the node reports

Channel updates and transactions arrive on subscriptions that are kept open.  Each update is
recorded as it comes; each transaction is stored unless it is stored already, and before the
first subscription to transactions those that the node lists are taken over.
-/

namespace NodeSteward

variable {σ : Type}

namespace FollowingEnd

/-- What a subscription comes to. -/
def result : FollowingEnd → Except IngestError Unit
  | .refused cause => .error (.rpc cause)
  | .cancelled => .ok ()
  | .waiting => .ok ()

end FollowingEnd

namespace ChannelUpdate

/-- Records an update and tells whether that worked. -/
def storeIn (store : Handler channelCalls σ) (listening : Bool) (patience : Nat)
    (clock : Timestamp) (update : ChannelUpdate) (state : σ × List Fact) :
    Bool × (σ × List Fact) :=
  match (update.record patience clock false).run.run (IngestCall.handler store listening) state with
  | (.ok _, state) => (true, state)
  | (.error _, state) => (false, state)

/-- Subscribes to channel updates and records them until the cancellation. -/
def follow (store : Handler channelCalls σ) (listening : Bool) (patience : Nat)
    (clock : Timestamp) (timing : Timing) (script : List (Attempt ChannelUpdate))
    (following : Following (σ × List Fact)) :
    Except IngestError Unit × Following (σ × List Fact) :=
  let (ending, following) :=
    following.run timing (storeIn store listening patience clock) script
  (ending.result, following)

end ChannelUpdate

namespace Transaction

/-- Stores a transaction and tells whether that worked. -/
def storeIn (store : Handler channelCalls σ) (transaction : Transaction) (state : σ) :
    Bool × σ :=
  match store (.insertTransaction transaction) state with
  | (.ok _, state) => (true, state)
  | (.error _, state) => (false, state)

/-- Takes over the transactions that the node lists, then subscribes to transactions and stores
them until the cancellation. -/
def follow (store : Handler channelCalls σ) (timing : Timing)
    (listed : Except RpcError (List Transaction)) (script : List (Attempt Transaction))
    (following : Following σ) : Except IngestError Unit × Following σ :=
  match (importAll listed).run.run (IngestCall.handler store false) (following.state, []) with
  | (.error error, state, _) => (.error error, { following with state })
  | (.ok _, state, _) =>
    let (ending, following) :=
      { following with state }.run timing (storeIn store) script
    (ending.result, following)

end Transaction

end NodeSteward
