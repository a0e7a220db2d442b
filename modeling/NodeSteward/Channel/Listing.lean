import NodeSteward.Channel.Ingestion

/-!
# Taking over what the node lists

The channels of a listing are recorded as if their updates had been received, except that their
events are marked as imported.  A channel point that already has an event of the listing's kind
is passed over, so that taking the same listing over twice records nothing twice.

Transactions are taken over in the same way: one that is stored already is left alone.
-/

namespace NodeSteward

open IngestProgram (ask)

/-- The channels that the node lists. -/
inductive Listing where
  | open (channels : List OpenChannel)
  | closed (channels : List ClosedChannel)
  deriving DecidableEq, Repr

/-- Which channels are listed. -/
inductive ListingKind where
  | open
  | closed
  deriving DecidableEq, Repr

namespace ListingKind

/-- The kind of event that an entry of such a listing becomes. -/
def eventType : ListingKind → ChannelEventType
  | .open => .open
  | .closed => .closed

end ListingKind

namespace Listing

def kind : Listing → ListingKind
  | .open _ => .open
  | .closed _ => .closed

/-- The entries as updates, each with its channel point. -/
def entries : Listing → List (String × ChannelUpdate)
  | .open channels => channels.map (fun channel => (channel.point, .open channel))
  | .closed channels => channels.map (fun channel => (channel.point, .closed channel))

/-- Records the entries whose channel points have not been seen, and yields how many. -/
def importEntries (patience : Nat) (now : Timestamp) :
    List String → List (String × ChannelUpdate) → IngestProgram Nat
  | _, [] => pure 0
  | seen, (point, update) :: rest =>
    if point ∈ seen then importEntries patience now seen rest
    else do
      update.record patience now true
      let others ← importEntries patience now (point :: seen) rest
      return others + 1

/-- Takes a listing over, and yields how many events were recorded.  The first failure, of the
node or of the store, ends the import. -/
def importAll (patience : Nat) (now : Timestamp) (listed : Except RpcError Listing) :
    IngestProgram Nat :=
  match listed with
  | .error error => throw (.rpc error)
  | .ok listing => do
    let seen ← ask
      (.existingPoints listing.kind.eventType (listing.entries.map Prod.fst))
    importEntries patience now seen listing.entries

end Listing

namespace Transaction

/-- Stores those of some transactions that are new, and yields how many. -/
def importEach : List Transaction → IngestProgram Nat
  | [] => pure 0
  | transaction :: rest => do
    let new ← ask (.insertTransaction transaction)
    let others ← importEach rest
    return others + if new then 1 else 0

/-- Takes the transactions over that the node lists. -/
def importAll (listed : Except RpcError (List Transaction)) : IngestProgram Nat :=
  match listed with
  | .error error => throw (.rpc error)
  | .ok transactions => importEach transactions

end Transaction

end NodeSteward
