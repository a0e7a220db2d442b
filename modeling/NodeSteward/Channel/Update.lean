import NodeSteward.Channel.Status
import NodeSteward.Time.Reading

/-!
# What a Lightning node reports

These are the records that a node sends: the channels that it lists, the events of its channels,
and the transactions of its wallet.  An outpoint comes either as a text or as the bytes of the
funding transaction in the order that the network uses.
-/

namespace NodeSteward

/-- An open channel as the node lists it. -/
structure OpenChannel where
  /-- The packed short identifier. -/
  chanId : UInt64
  point : String
  remotePubKey : String
  capacity : Int
  isPrivate : Bool
  isActive : Bool
  isInitiator : Bool
  deriving DecidableEq, Repr

/-- A closed channel as the node lists it. -/
structure ClosedChannel where
  /-- The packed short identifier, zero where the channel was never confirmed. -/
  chanId : UInt64
  point : String
  remotePubKey : String
  capacity : Int
  closingHash : String
  closeHeight : UInt32
  settledBalance : Int
  closeType : CloseType
  deriving DecidableEq, Repr

/-- A funding outpoint by the bytes of its transaction. -/
structure BinaryOutpoint where
  txid : List UInt8
  output : UInt32
  deriving DecidableEq, Repr

/-- A channel whose funding transaction is not confirmed yet. -/
structure PendingChannel where
  txid : List UInt8
  output : UInt32
  deriving DecidableEq, Repr

/-- One event of the node's channels. -/
inductive ChannelUpdate where
  | open (channel : OpenChannel)
  | closed (channel : ClosedChannel)
  | active (outpoint : BinaryOutpoint)
  | inactive (outpoint : BinaryOutpoint)
  | fullyResolved (outpoint : BinaryOutpoint)
  | pendingOpen (channel : PendingChannel)
  deriving DecidableEq, Repr

/-- A transaction of the node's wallet. -/
structure Transaction where
  hash : String
  amount : Int
  confirmations : Int32
  blockHash : String
  blockHeight : Int32
  /-- Seconds since the start of 1970. -/
  timeStamp : Int
  totalFees : Int
  destinations : List String
  rawHex : String
  label : String
  deriving DecidableEq, Repr

namespace OpenChannel

def toJson (channel : OpenChannel) : Json :=
  .ofMembers
    [("chanId", .ofNat channel.chanId.toNat), ("channelPoint", .text channel.point),
      ("remotePubkey", .text channel.remotePubKey), ("capacity", .ofInt channel.capacity),
      ("private", .boolean channel.isPrivate), ("active", .boolean channel.isActive),
      ("initiator", .boolean channel.isInitiator)]

def decode? (source : Source) : Option OpenChannel := do
  let slots ← source.slots?
    ["chanId", "channelPoint", "remotePubkey", "capacity", "private", "active", "initiator"]
  return {
    chanId := ← slots.required "chanId" Source.uint64?
    point := ← slots.required "channelPoint" Source.text?
    remotePubKey := ← slots.required "remotePubkey" Source.text?
    capacity := ← slots.required "capacity" Source.int64?
    isPrivate := ← slots.required "private" Source.boolean?
    isActive := ← slots.required "active" Source.boolean?
    isInitiator := ← slots.required "initiator" Source.boolean? }

end OpenChannel

namespace ClosedChannel

def toJson (channel : ClosedChannel) : Json :=
  .ofMembers
    [("chanId", .ofNat channel.chanId.toNat), ("channelPoint", .text channel.point),
      ("remotePubkey", .text channel.remotePubKey), ("capacity", .ofInt channel.capacity),
      ("closingTxHash", .text channel.closingHash),
      ("closeHeight", .ofNat channel.closeHeight.toNat),
      ("settledBalance", .ofInt channel.settledBalance), ("closeType", channel.closeType.toJson)]

def decode? (source : Source) : Option ClosedChannel := do
  let slots ← source.slots?
    ["chanId", "channelPoint", "remotePubkey", "capacity", "closingTxHash", "closeHeight",
      "settledBalance", "closeType"]
  return {
    chanId := ← slots.required "chanId" Source.uint64?
    point := ← slots.required "channelPoint" Source.text?
    remotePubKey := ← slots.required "remotePubkey" Source.text?
    capacity := ← slots.required "capacity" Source.int64?
    closingHash := ← slots.required "closingTxHash" Source.text?
    closeHeight := ← slots.required "closeHeight" Source.uint32?
    settledBalance := ← slots.required "settledBalance" Source.int64?
    closeType := ← slots.required "closeType" CloseType.decode? }

end ClosedChannel

/-- Bytes as the list of their values. -/
def Json.ofBytes (bytes : List UInt8) : Json :=
  .ofList (fun byte => .ofNat byte.toNat) bytes

namespace BinaryOutpoint

def toJson (outpoint : BinaryOutpoint) : Json :=
  .ofMembers
    [("fundingTxidBytes", .ofBytes outpoint.txid), ("outputIndex", .ofNat outpoint.output.toNat)]

def decode? (source : Source) : Option BinaryOutpoint := do
  let slots ← source.slots? ["fundingTxidBytes", "outputIndex"]
  return {
    txid := ← slots.required "fundingTxidBytes" (Source.list? Source.byte?)
    output := ← slots.required "outputIndex" Source.uint32? }

end BinaryOutpoint

namespace PendingChannel

def toJson (channel : PendingChannel) : Json :=
  .ofMembers [("txid", .ofBytes channel.txid), ("outputIndex", .ofNat channel.output.toNat)]

def decode? (source : Source) : Option PendingChannel := do
  let slots ← source.slots? ["txid", "outputIndex"]
  return {
    txid := ← slots.required "txid" (Source.list? Source.byte?)
    output := ← slots.required "outputIndex" Source.uint32? }

end PendingChannel

namespace ChannelUpdate

/-- What the update reports, without its kind. -/
def payload : ChannelUpdate → Json
  | .open channel => channel.toJson
  | .closed channel => channel.toJson
  | .active outpoint => outpoint.toJson
  | .inactive outpoint => outpoint.toJson
  | .fullyResolved outpoint => outpoint.toJson
  | .pendingOpen channel => channel.toJson

/-- The name of the kind of an update. -/
def kind : ChannelUpdate → String
  | .open _ => "open"
  | .closed _ => "closed"
  | .active _ => "active"
  | .inactive _ => "inactive"
  | .fullyResolved _ => "fully_resolved"
  | .pendingOpen _ => "pending_open"

/-- An object whose only member is named for the kind. -/
def toJson (update : ChannelUpdate) : Json :=
  .object [(update.kind, update.payload)]

def decode? : Source → Option ChannelUpdate
  | .object [(some "open", source)] => (OpenChannel.decode? source).map .open
  | .object [(some "closed", source)] => (ClosedChannel.decode? source).map .closed
  | .object [(some "active", source)] => (BinaryOutpoint.decode? source).map .active
  | .object [(some "inactive", source)] => (BinaryOutpoint.decode? source).map .inactive
  | .object [(some "fully_resolved", source)] => (BinaryOutpoint.decode? source).map .fullyResolved
  | .object [(some "pending_open", source)] => (PendingChannel.decode? source).map .pendingOpen
  | _ => none

end ChannelUpdate

namespace Transaction

/-- The instant of a transaction; one outside of the calendar's range counts as the start of
1970. -/
def timestamp (transaction : Transaction) : Timestamp :=
  if Timestamp.inRange transaction.timeStamp then ⟨transaction.timeStamp, 0⟩ else .epoch

def toJson (transaction : Transaction) : Json :=
  .ofMembers
    [("txHash", .text transaction.hash), ("amount", .ofInt transaction.amount),
      ("numConfirmations", .ofInt transaction.confirmations.toInt),
      ("blockHash", .text transaction.blockHash),
      ("blockHeight", .ofInt transaction.blockHeight.toInt),
      ("timeStamp", .ofInt transaction.timeStamp), ("totalFees", .ofInt transaction.totalFees),
      ("destAddresses", .ofList Json.text transaction.destinations),
      ("rawTxHex", .text transaction.rawHex), ("label", .text transaction.label)]

def decode? (source : Source) : Option Transaction := do
  let slots ← source.slots?
    ["txHash", "amount", "numConfirmations", "blockHash", "blockHeight", "timeStamp", "totalFees",
      "destAddresses", "rawTxHex", "label"]
  return {
    hash := ← slots.required "txHash" Source.text?
    amount := ← slots.required "amount" Source.int64?
    confirmations := ← slots.required "numConfirmations" Source.int32?
    blockHash := ← slots.required "blockHash" Source.text?
    blockHeight := ← slots.required "blockHeight" Source.int32?
    timeStamp := ← slots.required "timeStamp" Source.int64?
    totalFees := ← slots.required "totalFees" Source.int64?
    destinations := ← slots.required "destAddresses" (Source.list? Source.text?)
    rawHex := ← slots.required "rawTxHex" Source.text?
    label := ← slots.required "label" Source.text? }

end Transaction

end NodeSteward
