import NodeSteward.Channel.Ingestion
import NodeSteward.Channel.RateLimiter
import NodeSteward.Channel.Reconciliation
import NodeSteward.Message.Member

/-!
# Messages about channels

Channels are named by their identifiers or their channel points.  A message about a new channel
gives what is known about it, and the rest is filled in.
-/

namespace NodeSteward

namespace NewChannel

/-- The transaction and the height in a message about a closed channel. -/
def closing? : Source → Option (String × Int)
  | .list [hash, height] => do return (← hash.text?, ← height.whole?)
  | _ => none

/-- A new channel.  That it is private is heard only together with its capacity. -/
def ofMessage? (now : Timestamp) (message : Source) : Option NewChannel := do
  let point ← message.wanted "channel_point" Source.text?
  let status ← message.wanted "status" ChannelStatus.decode?
  let shortChannelId ← message.optionally "short_channel_id" ShortChannelId.decode?
  let remotePubKey ← message.orElse "remote_pub_key" Source.text? ""
  let capacity ← message.optionally "capacity" Source.int64?
  let isPrivate ← message.orElse "private" Source.boolean? false
  let channel : NewChannel :=
    { ofPoint point status now with
      shortChannelId
      remotePubKey
      capacity := capacity.getD 0
      isPrivate := capacity.isSome && isPrivate }
  match ← message.optionally "closing" closing? with
  | some (hash, height) => return channel.withClosing hash height
  | none => return channel

end NewChannel

namespace ChannelTransaction

def decode? (source : Source) : Option ChannelTransaction :=
  match source.text? with
  | some "funding" => some .funding
  | some "closing" => some .closing
  | _ => none

end ChannelTransaction

namespace Confirmation

def ofMessage? (message : Source) : Option Confirmation := do
  return {
    blockHeight := ← message.wanted "block_height" Source.whole?
    transactionOn := ← message.optionally "transaction_on" Source.instant?
    confirmedOn := ← message.optionally "confirmed_on" Source.instant? }

end Confirmation

namespace StatusChange

def ofMessage? (message : Source) : Option StatusChange := do
  return {
    source := ← message.wanted "from" ChannelStatus.decode?
    target := ← message.wanted "to" ChannelStatus.decode?
    closingHash := ← message.optionally "closing_transaction_hash" Source.text?
    closingHeight := ← message.optionally "closing_block_height" Source.whole? }

end StatusChange

namespace RateLimit

/-- A limit as the pair of its numbers. -/
def ofPair? : Source → Option RateLimit
  | .list [maxRequests, windowSeconds] => do
    return ⟨← maxRequests.uint32?, ← windowSeconds.uint32?⟩
  | _ => none

end RateLimit

namespace Permission

def toJson : Permission → Json
  | .allowed => .object [("allowed", .boolean true)]
  | .exceeded retryAfter =>
    .object [("allowed", .boolean false), ("retry_after_ns", .ofNat retryAfter)]

end Permission

namespace Channel

/-- What a channel lacks, and its packed short identifier. -/
def needsJson (channel : Channel) : Json :=
  .object
    [("funding", .boolean channel.needsFundingDetails),
      ("closing", .boolean channel.needsClosingDetails),
      ("short_channel_id", .boolean channel.needsShortChannelId),
      ("lnd", .ofOption (fun id => .ofNat id.toNat) channel.packedId)]

end Channel

namespace Fact

def toJson : Fact → Json
  | .peer key => .list [.text "peer", .text key]
  | .point shown => .list [.text "point", .text shown]

end Fact

namespace SweepSummary

def toJson (summary : SweepSummary) : Json :=
  .object
    [("channels", .ofNat summary.channels), ("lookups", .ofNat summary.lookups),
      ("updated", .ofNat summary.updated), ("failures", .ofNat summary.failures)]

end SweepSummary

namespace ChannelCall

/-- The call that a message asks for under the given name, unless the event of the message cannot
be written down. -/
def ofMessage? (now : Timestamp) (name : String) (message : Source) :
    Option (Except OutpointError ChannelCall) := do
  match name with
  | "get_channel" => return .ok (.getChannel (← message.wanted "id" Id.decode?))
  | "find_channel" => return .ok (.findChannel (← message.wanted "channel_point" Source.text?))
  | "list_channels" => return .ok .listChannels
  | "ensure_channel" => return .ok (.ensureChannel (← NewChannel.ofMessage? now message))
  | "record_confirmation" =>
    return .ok (.recordConfirmation now (← message.wanted "id" Id.decode?)
      (← message.wanted "transaction" ChannelTransaction.decode?)
      (← Confirmation.ofMessage? message))
  | "set_short_channel_id" =>
    return .ok (.setShortChannelId now (← message.wanted "id" Id.decode?)
      (← message.wanted "short_channel_id" ShortChannelId.decode?))
  | "change_status" =>
    return .ok (.changeStatus now (← message.wanted "channel_point" Source.text?)
      (← StatusChange.ofMessage? message))
  | "insert_event" =>
    let update ← message.wanted "update" ChannelUpdate.decode?
    let imported ← message.orElse "imported" Source.boolean? false
    let time ← message.wanted "time" Source.instant?
    return (ChannelEvent.ofUpdate update imported time).map .insertEvent
  | "existing_points" =>
    return .ok (.existingPoints (← message.wanted "type" ChannelEventType.decode?)
      (← message.wanted "points" (Source.list? Source.text?)))
  | "channel_events" => return .ok (.channelEvents (← message.wanted "channel_point" Source.text?))
  | "insert_transaction" =>
    return .ok (.insertTransaction (← message.wanted "tx" Transaction.decode?))
  | "list_transactions" => return .ok .listTransactions
  | _ => none

/-- What a call yields, as JSON.  Channel points are shown in their order. -/
def encode : (request : ChannelCall) → request.Value → Json
  | getChannel _ => Json.ofOption Channel.toJson
  | findChannel _ => Json.ofOption Channel.toJson
  | listChannels => Json.ofList Channel.toJson
  | ensureChannel _ => Channel.toJson
  | recordConfirmation _ _ _ _ => fun _ => .null
  | setShortChannelId _ _ _ => fun _ => .null
  | changeStatus _ _ _ => Json.boolean
  | insertEvent _ => fun _ => .null
  | existingPoints _ _ => fun points => .ofList Json.text (points.mergeSort (fun a b => a ≤ b))
  | channelEvents _ => Json.ofList ChannelEvent.toJson
  | insertTransaction _ => Json.boolean
  | listTransactions => Json.ofList Transaction.toJson

end ChannelCall

end NodeSteward
