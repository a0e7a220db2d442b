import NodeSteward.Daemon.ChannelWork
import NodeSteward.Message.Channel

/-!
# Scripts in messages

A message can hold what the Lightning node and the verification service are going to do: what the
node lists, what its streams deliver, and what the service answers.  A member `fail` in the place
of a list or an answer stands for a failure.
-/

namespace NodeSteward

variable {α : Type}

namespace RpcError

/-- What the node lists, or the failure of the call with the given name. -/
def listed? (operation : String) (decode : Source → Option α) (source : Source) :
    Option (Except RpcError (List α)) :=
  match source.given? "fail" with
  | some details => details.text?.map (fun details => .error (.call operation details))
  | none => (source.list? decode).map .ok

end RpcError

namespace Listing

/-- The listing of the given kind in a message. -/
def ofMessage? (message : Source) : ListingKind → Option (Except RpcError Listing)
  | .open => do
    let channels ← message.orElse "open" (RpcError.listed? "list_channels" OpenChannel.decode?)
      (.ok [])
    return channels.map .open
  | .closed => do
    let channels ← message.orElse "closed"
      (RpcError.listed? "closed_channels" ClosedChannel.decode?) (.ok [])
    return channels.map .closed

end Listing

namespace ListingKind

def decode? (source : Source) : Option ListingKind :=
  match source.text? with
  | some "open" => some .open
  | some "closed" => some .closed
  | _ => none

end ListingKind

namespace Transaction

/-- The transactions that the node lists. -/
def listed? (message : Source) : Option (Except RpcError (List Transaction)) :=
  message.orElse "transactions" (RpcError.listed? "get_transactions" decode?) (.ok [])

end Transaction

/-- What the node streams to a subscriber. -/
class Streamed (ι : Type) where
  /-- The name of the call that opens the stream. -/
  operation : String

instance : Streamed ChannelUpdate where
  operation := "subscribe_channel_events"

instance : Streamed Transaction where
  operation := "subscribe_transactions"

namespace Delivery

def ofMessage? [Streamed α] (decode : Source → Option α) (message : Source) :
    Option (Delivery α) := do
  let delay ← message.orElse "after_ms" Source.millis? 0
  match ← message.optionally "error" Source.text? with
  | some details => return ⟨delay, .error (.stream (Streamed.operation α) details)⟩
  | none => return ⟨delay, .ok (← message.wanted "item" decode)⟩

end Delivery

namespace Attempt

def ofMessage? [Streamed α] (decode : Source → Option α) (message : Source) :
    Option (Attempt α) := do
  match ← message.optionally "fail" Source.text? with
  | some details => return .refused (.call (Streamed.operation α) details)
  | none =>
    return .stream (← message.orElse "items" (Source.list? (Delivery.ofMessage? decode)) [])
      (← message.orElse "hold" Source.boolean? false)

/-- The attempts under a name. -/
def listOf? [Streamed α] (message : Source) (name : String) (decode : Source → Option α) :
    Option (List (Attempt α)) :=
  message.orElse name (Source.list? (ofMessage? decode)) []

end Attempt

namespace NodeScript

def ofMessage? (message : Source) : Option NodeScript := do
  return {
    openChannels := ← Listing.ofMessage? message .open
    closedChannels := ← Listing.ofMessage? message .closed
    transactions := ← Transaction.listed? message
    updateStreams := ← Attempt.listOf? message "streams" ChannelUpdate.decode?
    transactionStreams := ← Attempt.listOf? message "tx_streams" Transaction.decode? }

end NodeScript

namespace ServiceScript

/-- The details of a transaction, where there is an answer. -/
def details? : String × Source → Option (Option (String × TransactionDetails))
  | (hash, message) =>
    if (message.given? "fail").isSome then some none
    else do
      return some (hash,
        { hash
          blockHeight := ← message.wanted "block_height" Source.whole?
          blockTime := ← message.optionally "block_timestamp" Source.instant?
          transactionTime := ← message.optionally "transaction_timestamp" Source.instant? })

/-- The text of a short identifier; an object in its place stands for a failure. -/
def shortId? : String × Source → Option (Option (String × Option String))
  | (_, .null) => some none
  | (question, .object _) => some (some (question, none))
  | (question, source) => source.text?.map (fun text => some (question, some text))

/-- An update and the number of the question during which it comes. -/
def meanwhile? : String × Source → Option (Nat × ChannelUpdate)
  | (number, source) => do return (← number.toNat?, ← ChannelUpdate.decode? source)

def ofMessage? (message : Source) : Option ServiceScript := do
  let details ← (← message.orElse "details" Source.members? []).mapM details?
  let shortIds ← (← message.orElse "short_ids" Source.members? []).mapM shortId?
  let meanwhile ← (← message.orElse "during" Source.members? []).mapM meanwhile?
  return ⟨details.filterMap id, shortIds.filterMap id, meanwhile⟩

end ServiceScript

namespace Lookup

/-- A question with its instant. -/
def askedJson (asked : Nat × Lookup) : Json :=
  .list [.ofNat (Timer.toMillis asked.1), .text asked.2.text]

end Lookup

end NodeSteward
