import NodeSteward.Channel.Error
import NodeSteward.Channel.Update
import NodeSteward.Text.Hex

/-!
# Channel events

Every update of a channel is written down as one event, which keeps what the update reported and
is never changed.  Events find their channel by the channel point; where an update carries the
bytes of the funding transaction, the point is written with the bytes in reverse, as block
explorers show them.
-/

namespace NodeSteward

/-- The kinds of events. -/
inductive ChannelEventType where
  | open
  | closed
  | active
  | inactive
  | fullyResolved
  | pendingOpen
  deriving DecidableEq, Repr

namespace ChannelEventType

def all : List ChannelEventType :=
  [.open, .closed, .active, .inactive, .fullyResolved, .pendingOpen]

/-- The number under which a kind is stored. -/
def code : ChannelEventType → Int
  | .open => 0
  | .closed => 1
  | .active => 2
  | .inactive => 3
  | .fullyResolved => 4
  | .pendingOpen => 5

def name : ChannelEventType → String
  | .open => "open"
  | .closed => "closed"
  | .active => "active"
  | .inactive => "inactive"
  | .fullyResolved => "fully_resolved"
  | .pendingOpen => "pending_open"

/-- The kind stored under a number. -/
def ofCode? (code : Int) : Option ChannelEventType :=
  all.find? (fun type => type.code == code)

def decode? (source : Source) : Option ChannelEventType :=
  source.case? all name

def toJson (type : ChannelEventType) : Json :=
  .text type.name

end ChannelEventType

/-- One event of a channel. -/
structure ChannelEvent where
  time : Timestamp
  type : ChannelEventType
  /-- True when the event comes from a listing rather than from the stream. -/
  imported : Bool
  /-- The packed short identifier, where the update carries one. -/
  chanId : Option UInt64
  point : String
  pubKey : Option String
  /-- What the update reported. -/
  payload : Json
  deriving Repr

/-- The channel point of a binary outpoint: the bytes of the transaction in reverse, a colon and
the output.  A transaction has 32 bytes. -/
def channelPoint (txid : List UInt8) (output : UInt32) : Except OutpointError String :=
  if txid.length = 32 then
    .ok (String.ofList (Hex.encode txid.reverse ++ ':' :: Decimal.digits output.toNat))
  else .error ⟨txid.length⟩

namespace ChannelUpdate

/-- The kind of event that an update becomes. -/
def eventType : ChannelUpdate → ChannelEventType
  | .open _ => .open
  | .closed _ => .closed
  | .active _ => .active
  | .inactive _ => .inactive
  | .fullyResolved _ => .fullyResolved
  | .pendingOpen _ => .pendingOpen

/-- The channel point that an update is about. -/
def point : ChannelUpdate → Except OutpointError String
  | .open channel => .ok channel.point
  | .closed channel => .ok channel.point
  | .active outpoint => channelPoint outpoint.txid outpoint.output
  | .inactive outpoint => channelPoint outpoint.txid outpoint.output
  | .fullyResolved outpoint => channelPoint outpoint.txid outpoint.output
  | .pendingOpen channel => channelPoint channel.txid channel.output

/-- The packed short identifier and the key of the peer, where an update carries them. -/
def peer : ChannelUpdate → Option (UInt64 × String)
  | .open channel => some (channel.chanId, channel.remotePubKey)
  | .closed channel => some (channel.chanId, channel.remotePubKey)
  | _ => none

end ChannelUpdate

namespace ChannelEvent

/-- The event of an update that came at the given time. -/
def ofUpdate (update : ChannelUpdate) (imported : Bool) (time : Timestamp) :
    Except OutpointError ChannelEvent :=
  update.point.map fun point =>
    { time
      type := update.eventType
      imported
      chanId := update.peer.map Prod.fst
      point
      pubKey := update.peer.map Prod.snd
      payload := update.payload }

def toJson (event : ChannelEvent) : Json :=
  .ofMembers
    [("time", event.time.toJson), ("event_type", event.type.toJson),
      ("imported", .boolean event.imported),
      ("chan_id", .ofOption (fun id => Json.ofNat id.toNat) event.chanId),
      ("chan_point", .text event.point), ("pub_key", .ofOption Json.text event.pubKey),
      ("payload", event.payload)]

/-- Decodes an event; the object around the payload counts as nesting. -/
def decode? (source : Source) : Option ChannelEvent := do
  let slots ← source.slots?
    ["time", "event_type", "imported", "chan_id", "chan_point", "pub_key", "payload"]
  return {
    time := ← slots.required "time" Timestamp.decode?
    type := ← slots.required "event_type" ChannelEventType.decode?
    imported := ← slots.required "imported" Source.boolean?
    chanId := ← slots.optional "chan_id" Source.uint64?
    point := ← slots.required "chan_point" Source.text?
    pubKey := ← slots.optional "pub_key" Source.text?
    payload := ← slots.required "payload" (Source.toJson? (Json.nestingLimit - 1)) }

end ChannelEvent

end NodeSteward
