import NodeSteward.Channel.Requests

/-!
# Recording channel updates

Every update becomes one event.  An update that opens or closes a channel also makes sure that
there is a record of the channel and moves it along its life, and it tells others about the peer
and the channel point.

The status of a record is changed only from the status that was read.  If another writer was
faster the record is read and judged again; statuses only move forward, so that this settles
soon, and `patience` bounds how often it is tried.  The bound is there for the recursion alone:
while statuses only move forward, one of three or more is never reached.

To tell a fact is a call that is answered at once.  Whoever listens takes what is told without
delay, and where nobody listens it is dropped; no recording waits for a listener.
-/

namespace NodeSteward

/-- Something that other parts of the daemon may want to know. -/
inductive Fact where
  /-- The key of a peer with whom there is a channel. -/
  | peer (key : String)
  /-- A channel point that is worth watching. -/
  | point (point : String)
  deriving DecidableEq, Repr

namespace ChannelUpdate

/-- What an update tells others. -/
def facts : ChannelUpdate → List Fact
  | .open channel => [.peer channel.remotePubKey, .point channel.point]
  | .closed channel => [.point channel.point]
  | _ => []

/-- The short identifier of a packed one; zero stands for none. -/
def shortIdOf (packed : UInt64) : Option ShortChannelId :=
  if packed = 0 then none else some (.ofPacked packed)

/-- The record of the channel that an update opens or closes. -/
def channel? (now : Timestamp) : ChannelUpdate → Option NewChannel
  | .open channel =>
    some
      { NewChannel.ofPoint channel.point .open now with
        shortChannelId := shortIdOf channel.chanId
        remotePubKey := channel.remotePubKey
        capacity := channel.capacity
        isPrivate := channel.isPrivate }
  | .closed channel =>
    some
      { (NewChannel.ofPoint channel.point channel.closeType.status now).withClosing
          channel.closingHash channel.closeHeight.toNat with
        shortChannelId := shortIdOf channel.chanId
        remotePubKey := channel.remotePubKey
        capacity := channel.capacity }
  | _ => none

end ChannelUpdate

/-- What recording an update asks of others: calls to the store, and that a fact is told. -/
inductive IngestCall where
  | store (request : ChannelCall)
  | publish (fact : Fact)

abbrev ingestCalls : Interface where
  Call := IngestCall
  Answer
    | .store request => Except StoreError request.Value
    | .publish _ => Unit

/-- A part of recording: calls that end in a value or an error. -/
abbrev IngestProgram (α : Type) := ExceptT IngestError (Program ingestCalls) α

namespace IngestProgram

/-- Makes a call to the store; its failure ends the recording. -/
def ask (request : ChannelCall) : IngestProgram request.Value :=
  ExceptT.mk (.call (I := ingestCalls) (.store request) fun answer =>
    .done (answer.mapError IngestError.store))

/-- Tells facts one after the other. -/
def publish : List Fact → IngestProgram Unit
  | [] => pure ()
  | fact :: facts => ExceptT.mk (.call (I := ingestCalls) (.publish fact) fun _ => publish facts)

end IngestProgram

namespace IngestCall

/-- Answers the calls to the store by its handler, and collects the facts that are told if
anybody listens, the oldest first. -/
def handler {σ : Type} (store : Handler channelCalls σ) (listening : Bool) :
    Handler ingestCalls (σ × List Fact)
  | .store request, (state, facts) =>
    let (answer, state) := store request state
    (answer, (state, facts))
  | .publish fact, (state, facts) => ((), (state, if listening then facts ++ [fact] else facts))

end IngestCall

open IngestProgram (ask publish)

namespace Channel

/-- Moves a record that was read to the status of `wanted`, as far as its own status allows. -/
def advance (now : Timestamp) (wanted : NewChannel) : Nat → Channel → IngestProgram Unit
  | patience, stored =>
    if stored.status = wanted.status ∨ !stored.status.canBecome wanted.status then pure ()
    else
      match patience with
      | 0 => throw (.unsettled stored.point)
      | patience + 1 => do
        let changed ← ask (.changeStatus now stored.point
          { source := stored.status
            target := wanted.status
            closingHash := wanted.closingHash
            closingHeight := wanted.closingHeight })
        if changed then pure ()
        else
          match ← ask (.findChannel stored.point) with
          | none => pure ()
          | some channel => advance now wanted patience channel

/-- Makes sure that there is a record of a channel and that it is as far in its life as the
update says.  A new record is inserted as wanted; an old one keeps all it has but its status and,
where none was known, its closing transaction. -/
def ensure (patience : Nat) (now : Timestamp) (wanted : NewChannel) : IngestProgram Unit := do
  let stored ← ask (.ensureChannel wanted)
  advance now wanted patience stored

end Channel

namespace ChannelUpdate

/-- Records one update that came at the given instant.  An update whose outpoint cannot be shown
is refused before anything else is done. -/
def record (patience : Nat) (now : Timestamp) (update : ChannelUpdate) (imported : Bool) :
    IngestProgram Unit :=
  match ChannelEvent.ofUpdate update imported now with
  | .error error => throw (.outpoint error)
  | .ok event => do
    publish update.facts
    match update.channel? now with
    | none => pure ()
    | some channel => Channel.ensure patience now channel
    ask (.insertEvent event)

end ChannelUpdate

end NodeSteward
