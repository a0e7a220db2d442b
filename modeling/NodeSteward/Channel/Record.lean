import NodeSteward.Channel.ShortChannelId
import NodeSteward.Channel.Status
import NodeSteward.Table
import NodeSteward.Time.Reading

/-!
# Channel records

A channel is known by its channel point, the funding transaction and its output with a colon
between them.  What happened to it on the chain becomes known later: where its funding and its
closing transaction were confirmed, and its short identifier.
-/

namespace NodeSteward

/-- A channel without an identifier. -/
structure NewChannel where
  shortChannelId : Option ShortChannelId
  point : String
  status : ChannelStatus
  remotePubKey : String
  capacity : Int
  isPrivate : Bool
  closingHash : Option String
  closingHeight : Option Int
  createdOn : Timestamp
  deriving DecidableEq, Repr

/-- A stored channel. -/
structure Channel where
  id : ChannelId
  shortChannelId : Option ShortChannelId
  /-- The funding transaction and its output. -/
  point : String
  status : ChannelStatus
  remotePubKey : String
  capacity : Int
  isPrivate : Bool
  fundingHash : String
  fundingOutput : UInt32
  fundingHeight : Option Int
  fundingTransactionOn : Option Timestamp
  fundedOn : Option Timestamp
  closingHash : Option String
  closingHeight : Option Int
  closingTransactionOn : Option Timestamp
  closedOn : Option Timestamp
  createdOn : Timestamp
  updatedOn : Timestamp
  deriving DecidableEq, Repr

instance : Filed .channel Channel := ⟨Channel.id⟩

namespace NewChannel

/-- A record with only its channel point and its status. -/
def ofPoint (point : String) (status : ChannelStatus) (createdOn : Timestamp) : NewChannel where
  shortChannelId := none
  point
  status
  remotePubKey := ""
  capacity := 0
  isPrivate := false
  closingHash := none
  closingHeight := none
  createdOn

/-- The record with its closing transaction; height 0 stands for an unknown height. -/
def withClosing (channel : NewChannel) (hash : String) (height : Int) : NewChannel :=
  { channel with
    closingHash := some hash
    closingHeight := if height = 0 then none else some height }

/-- Splits a text at its last colon. -/
def splitLastColon? : List Char → Option (List Char × List Char)
  | [] => none
  | c :: rest =>
    match splitLastColon? rest with
    | some (front, back) => some (c :: front, back)
    | none => if c = ':' then some ([], rest) else none

/-- The funding transaction and its output.  A channel point without a colon is taken as the
transaction, and an output that is no number of 32 bits as output 0. -/
def fundingOutpoint (channel : NewChannel) : String × UInt32 :=
  match splitLastColon? channel.point.toList with
  | none => (channel.point, 0)
  | some (hash, index) =>
    (String.ofList hash,
      match Decimal.readNat Decimal.maxUInt32 index with
      | .ok index => UInt32.ofNat index
      | .error _ => 0)

/-- The stored form under an identifier. -/
def withId (channel : NewChannel) (id : ChannelId) : Channel where
  id
  shortChannelId := channel.shortChannelId
  point := channel.point
  status := channel.status
  remotePubKey := channel.remotePubKey
  capacity := channel.capacity
  isPrivate := channel.isPrivate
  fundingHash := channel.fundingOutpoint.1
  fundingOutput := channel.fundingOutpoint.2
  fundingHeight := none
  fundingTransactionOn := none
  fundedOn := none
  closingHash := channel.closingHash
  closingHeight := channel.closingHeight
  closingTransactionOn := none
  closedOn := none
  createdOn := channel.createdOn
  updatedOn := channel.createdOn

end NewChannel

/-- One of the two transactions of a channel. -/
inductive ChannelTransaction where
  | funding
  | closing
  deriving DecidableEq, Repr

/-- Where and when a transaction was confirmed. -/
structure Confirmation where
  blockHeight : Int
  transactionOn : Option Timestamp
  confirmedOn : Option Timestamp
  deriving DecidableEq, Repr

/-- A change of status that applies only in the status from which it starts. -/
structure StatusChange where
  source : ChannelStatus
  target : ChannelStatus
  /-- Recorded only where no closing transaction is known yet. -/
  closingHash : Option String
  closingHeight : Option Int
  deriving DecidableEq, Repr

namespace Channel

/-- The packed short identifier. -/
def packedId (channel : Channel) : Option UInt64 :=
  channel.shortChannelId.map ShortChannelId.packed

/-- True when a height is not known; height 0 stands for that too. -/
def missingHeight : Option Int → Bool
  | none => true
  | some height => height == 0

/-- True when it should be looked up where the funding transaction was confirmed. -/
def needsFundingDetails (channel : Channel) : Bool :=
  channel.status != .opening && !channel.status.neverConfirms && !channel.fundingHash.isEmpty &&
    (channel.fundingTransactionOn.isNone || missingHeight channel.fundingHeight ||
      channel.fundedOn.isNone)

/-- True when it should be looked up where the closing transaction was confirmed. -/
def needsClosingDetails (channel : Channel) : Bool :=
  channel.status != .opening && channel.status != .open && !channel.status.neverConfirms &&
    channel.closingHash.any (fun hash => !hash.isEmpty) &&
    (channel.closingTransactionOn.isNone || missingHeight channel.closingHeight ||
      channel.closedOn.isNone)

/-- True when the short identifier should be looked up. -/
def needsShortChannelId (channel : Channel) : Bool :=
  channel.shortChannelId.isNone && channel.status != .opening &&
    !channel.status.neverConfirms && !channel.fundingHash.isEmpty

/-- The record with the confirmation of one of its transactions. -/
def applyConfirmation (channel : Channel) (transaction : ChannelTransaction)
    (confirmation : Confirmation) : Channel :=
  match transaction with
  | .funding =>
    { channel with
      fundingHeight := some confirmation.blockHeight
      fundingTransactionOn := confirmation.transactionOn
      fundedOn := confirmation.confirmedOn }
  | .closing =>
    { channel with
      closingHeight := some confirmation.blockHeight
      closingTransactionOn := confirmation.transactionOn
      closedOn := confirmation.confirmedOn }

/-- The record after a change of status, unless its status is not the one from which the change
starts. -/
def applyStatusChange? (channel : Channel) (change : StatusChange) : Option Channel :=
  if channel.status = change.source then
    some
      (if channel.closingHash.isNone then
        { channel with
          status := change.target
          closingHash := change.closingHash
          closingHeight := change.closingHeight }
      else { channel with status := change.target })
  else none

def fields : List String :=
  ["id", "short_channel_id", "channel_point", "status", "remote_pub_key", "capacity", "private",
    "funding_transaction_hash", "funding_output_index", "funding_block_height",
    "funding_transaction_on", "funded_on", "closing_transaction_hash", "closing_block_height",
    "closing_transaction_on", "closed_on", "created_on", "updated_on"]

def toJson (channel : Channel) : Json :=
  .ofMembers
    [("id", channel.id.toJson),
      ("short_channel_id", .ofOption ShortChannelId.toJson channel.shortChannelId),
      ("channel_point", .text channel.point),
      ("status", channel.status.toJson),
      ("remote_pub_key", .text channel.remotePubKey),
      ("capacity", .ofInt channel.capacity),
      ("private", .boolean channel.isPrivate),
      ("funding_transaction_hash", .text channel.fundingHash),
      ("funding_output_index", .ofNat channel.fundingOutput.toNat),
      ("funding_block_height", .ofOption Json.ofInt channel.fundingHeight),
      ("funding_transaction_on", .ofOption Timestamp.toJson channel.fundingTransactionOn),
      ("funded_on", .ofOption Timestamp.toJson channel.fundedOn),
      ("closing_transaction_hash", .ofOption Json.text channel.closingHash),
      ("closing_block_height", .ofOption Json.ofInt channel.closingHeight),
      ("closing_transaction_on", .ofOption Timestamp.toJson channel.closingTransactionOn),
      ("closed_on", .ofOption Timestamp.toJson channel.closedOn),
      ("created_on", channel.createdOn.toJson),
      ("updated_on", channel.updatedOn.toJson)]

def decode? (source : Source) : Option Channel := do
  let slots ← source.slots? fields
  return {
    id := ← slots.required "id" Id.decode?
    shortChannelId := ← slots.optional "short_channel_id" ShortChannelId.decode?
    point := ← slots.required "channel_point" Source.text?
    status := ← slots.required "status" ChannelStatus.decode?
    remotePubKey := ← slots.required "remote_pub_key" Source.text?
    capacity := ← slots.required "capacity" Source.int64?
    isPrivate := ← slots.required "private" Source.boolean?
    fundingHash := ← slots.required "funding_transaction_hash" Source.text?
    fundingOutput := ← slots.required "funding_output_index" Source.uint32?
    fundingHeight := ← slots.optional "funding_block_height" Source.int64?
    fundingTransactionOn := ← slots.optional "funding_transaction_on" Timestamp.decode?
    fundedOn := ← slots.optional "funded_on" Timestamp.decode?
    closingHash := ← slots.optional "closing_transaction_hash" Source.text?
    closingHeight := ← slots.optional "closing_block_height" Source.int64?
    closingTransactionOn := ← slots.optional "closing_transaction_on" Timestamp.decode?
    closedOn := ← slots.optional "closed_on" Timestamp.decode?
    createdOn := ← slots.required "created_on" Timestamp.decode?
    updatedOn := ← slots.required "updated_on" Timestamp.decode? }

end Channel

end NodeSteward
