import NodeSteward.Proofs.Channel.Points
import NodeSteward.Proofs.Json.Records

/-!
# What an event keeps of its update

An event holds what its update reported in the form of a value, and the kind of the update beside
it.  The kind tells as which record the value is to be decoded, and what is decoded is the record
that was reported.  So no two updates become the same event, and nothing but a funding transaction
of another number of bytes keeps an update from becoming one.
-/

namespace NodeSteward

open Decimal (IsInt64)
open Source (ofJson)

theorem CloseType.decode?_toJson (type : CloseType) : decode? (ofJson type.toJson) = some type := by
  apply Source.case?_text
  · cases type <;> decide
  · cases type <;> decide

theorem OpenChannel.decode?_toJson {channel : OpenChannel} (capacity : IsInt64 channel.capacity) :
    decode? (ofJson channel.toJson) = some channel := by
  rcases Source.exists_slots (rfl : channel.toJson = .ofMembers _) (by simp) with
    ⟨slots, written, fields⟩
  simp only [List.map_cons, List.map_nil, List.forall_mem_cons] at written fields
  rcases fields with ⟨chanId, point, remotePubKey, amount, isPrivate, isActive, isInitiator, -⟩
  rw [decode?, written]
  simp [chanId, point, remotePubKey, amount, isPrivate, isActive, isInitiator,
    Source.int64?_ofInt capacity]

theorem ClosedChannel.decode?_toJson {channel : ClosedChannel}
    (capacity : IsInt64 channel.capacity) (settledBalance : IsInt64 channel.settledBalance) :
    decode? (ofJson channel.toJson) = some channel := by
  rcases Source.exists_slots (rfl : channel.toJson = .ofMembers _) (by simp) with
    ⟨slots, written, fields⟩
  simp only [List.map_cons, List.map_nil, List.forall_mem_cons] at written fields
  rcases fields with
    ⟨chanId, point, remotePubKey, amount, closingHash, closeHeight, balance, closeType, -⟩
  rw [decode?, written]
  simp [chanId, point, remotePubKey, amount, closingHash, closeHeight, balance, closeType,
    Source.int64?_ofInt capacity, Source.int64?_ofInt settledBalance, CloseType.decode?_toJson]

theorem BinaryOutpoint.decode?_toJson (outpoint : BinaryOutpoint) :
    decode? (ofJson outpoint.toJson) = some outpoint := by
  rcases Source.exists_slots (rfl : outpoint.toJson = .ofMembers _) (by simp) with
    ⟨slots, written, fields⟩
  simp only [List.map_cons, List.map_nil, List.forall_mem_cons] at written fields
  rcases fields with ⟨txid, output, -⟩
  rw [decode?, written]
  simp [txid, output, Json.ofBytes, Source.list?_ofList Source.byte?_ofNat]

theorem PendingChannel.decode?_toJson (channel : PendingChannel) :
    decode? (ofJson channel.toJson) = some channel := by
  rcases Source.exists_slots (rfl : channel.toJson = .ofMembers _) (by simp) with
    ⟨slots, written, fields⟩
  simp only [List.map_cons, List.map_nil, List.forall_mem_cons] at written fields
  rcases fields with ⟨txid, output, -⟩
  rw [decode?, written]
  simp [txid, output, Json.ofBytes, Source.list?_ofList Source.byte?_ofNat]

namespace ChannelUpdate

variable {update : ChannelUpdate}

/-- The amounts that an update reports. -/
def amounts : ChannelUpdate → List Int
  | .open channel => [channel.capacity]
  | .closed channel => [channel.capacity, channel.settledBalance]
  | _ => []

/-- The amounts that an update reports are signed words of 64 bits. -/
def Sized (update : ChannelUpdate) : Prop :=
  ∀ amount ∈ update.amounts, IsInt64 amount

/-- The funding outpoint in bytes, where an update carries one. -/
def outpoint? : ChannelUpdate → Option (List UInt8 × UInt32)
  | .open _ => none
  | .closed _ => none
  | .active outpoint => some (outpoint.txid, outpoint.output)
  | .inactive outpoint => some (outpoint.txid, outpoint.output)
  | .fullyResolved outpoint => some (outpoint.txid, outpoint.output)
  | .pendingOpen channel => some (channel.txid, channel.output)

/-- The channel point of an update: the one that it reports, or the text of its outpoint. -/
def pointText : ChannelUpdate → String
  | .open channel => channel.point
  | .closed channel => channel.point
  | .active outpoint => outpointText outpoint.txid outpoint.output
  | .inactive outpoint => outpointText outpoint.txid outpoint.output
  | .fullyResolved outpoint => outpointText outpoint.txid outpoint.output
  | .pendingOpen channel => outpointText channel.txid channel.output

theorem point_of_outpoint {txid : List UInt8} {output : UInt32}
    (carries : update.outpoint? = some (txid, output)) :
    update.point = channelPoint txid output ∧ update.pointText = outpointText txid output := by
  cases update with
  | «open» => cases carries
  | closed => cases carries
  | _ =>
    cases carries
    exact ⟨rfl, rfl⟩

theorem point_of_no_outpoint (carries : update.outpoint? = none) :
    update.point = .ok update.pointText := by
  cases update with
  | «open» => rfl
  | closed => rfl
  | _ => cases carries

theorem pointText_of_point {point : String} (written : update.point = .ok point) :
    point = update.pointText := by
  cases carries : update.outpoint? with
  | none =>
    rw [point_of_no_outpoint carries] at written
    exact (Except.ok.inj written).symm
  | some outpoint =>
    rcases point_of_outpoint carries with ⟨named, text⟩
    rw [named, channelPoint_eq_ok_iff] at written
    rw [text, written.2]

theorem point_eq_error_iff {cause : OutpointError} :
    update.point = .error cause ↔ ∃ txid output, update.outpoint? = some (txid, output) ∧
      txid.length ≠ 32 ∧ cause = ⟨txid.length⟩ := by
  cases carries : update.outpoint? with
  | none => simp [point_of_no_outpoint carries]
  | some outpoint =>
    rcases outpoint with ⟨txid, output⟩
    rw [(point_of_outpoint carries).1, channelPoint_eq_error_iff]
    simp

end ChannelUpdate

namespace ChannelEvent

variable {update : ChannelUpdate} {imported : Bool} {time : Timestamp} {event : ChannelEvent}

/-- The update that an event was made from: its payload, decoded as a record of its type. -/
def update? (event : ChannelEvent) : Option ChannelUpdate :=
  match event.type with
  | .open => (OpenChannel.decode? (ofJson event.payload)).map .open
  | .closed => (ClosedChannel.decode? (ofJson event.payload)).map .closed
  | .active => (BinaryOutpoint.decode? (ofJson event.payload)).map .active
  | .inactive => (BinaryOutpoint.decode? (ofJson event.payload)).map .inactive
  | .fullyResolved => (BinaryOutpoint.decode? (ofJson event.payload)).map .fullyResolved
  | .pendingOpen => (PendingChannel.decode? (ofJson event.payload)).map .pendingOpen

theorem update?_congr {other : ChannelEvent} (sameType : event.type = other.type)
    (samePayload : event.payload = other.payload) : event.update? = other.update? := by
  rw [update?, update?, sameType, samePayload]

theorem ofUpdate_eq_ok_iff :
    ofUpdate update imported time = .ok event ↔
      ∃ point, update.point = .ok point ∧
        event = ⟨time, update.eventType, imported, update.peer.map Prod.fst, point,
          update.peer.map Prod.snd, update.payload⟩ := by
  rw [ofUpdate]
  cases update.point <;> simp [Except.map, eq_comm]

theorem ofUpdate_eq_error_iff {cause : OutpointError} :
    ofUpdate update imported time = .error cause ↔ update.point = .error cause := by
  rw [ofUpdate]
  cases update.point <;> simp [Except.map]

theorem update?_of_ofUpdate (sized : update.Sized)
    (made : ofUpdate update imported time = .ok event) : event.update? = some update := by
  rcases ofUpdate_eq_ok_iff.mp made with ⟨point, -, rfl⟩
  cases update with
  | «open» channel =>
    have capacity := List.forall_mem_singleton.mp sized
    simp [update?, ChannelUpdate.eventType, ChannelUpdate.payload,
      OpenChannel.decode?_toJson capacity]
  | closed channel =>
    rcases List.forall_mem_cons.mp sized with ⟨capacity, rest⟩
    have settledBalance := List.forall_mem_singleton.mp rest
    simp [update?, ChannelUpdate.eventType, ChannelUpdate.payload,
      ClosedChannel.decode?_toJson capacity settledBalance]
  | pendingOpen channel =>
    simp [update?, ChannelUpdate.eventType, ChannelUpdate.payload, PendingChannel.decode?_toJson]
  | _ outpoint =>
    simp [update?, ChannelUpdate.eventType, ChannelUpdate.payload, BinaryOutpoint.decode?_toJson]

/-- The update that an event was made from can be decoded from it, and the event has the channel
point of that update.  So two updates whose events agree in type and payload are the same.  An
update does not become an event just if it carries a funding transaction that has not 32 bytes. -/
theorem events_keep_updates :
    (∀ (update : ChannelUpdate) (imported : Bool) (time : Timestamp) (event : ChannelEvent),
      update.Sized → ofUpdate update imported time = .ok event →
        event.update? = some update ∧ event.point = update.pointText) ∧
    (∀ (update other : ChannelUpdate) (imported otherImported : Bool) (time otherTime : Timestamp)
      (event otherEvent : ChannelEvent), update.Sized → other.Sized →
        ofUpdate update imported time = .ok event →
        ofUpdate other otherImported otherTime = .ok otherEvent →
        event.type = otherEvent.type → event.payload = otherEvent.payload → update = other) ∧
    ∀ (update : ChannelUpdate) (imported : Bool) (time : Timestamp) (cause : OutpointError),
      ofUpdate update imported time = .error cause ↔
        ∃ txid output, update.outpoint? = some (txid, output) ∧ txid.length ≠ 32 ∧
          cause = ⟨txid.length⟩ := by
  refine ⟨?_, ?_, ?_⟩
  · intro update imported time event sized made
    refine ⟨update?_of_ofUpdate sized made, ?_⟩
    rcases ofUpdate_eq_ok_iff.mp made with ⟨point, written, rfl⟩
    exact ChannelUpdate.pointText_of_point written
  · intro update other imported otherImported time otherTime event otherEvent sized otherSized made
      otherMade sameType samePayload
    have decoded := update?_of_ofUpdate sized made
    rw [update?_congr sameType samePayload, update?_of_ofUpdate otherSized otherMade] at decoded
    exact (Option.some.inj decoded).symm
  · intro update imported time cause
    rw [ofUpdate_eq_error_iff, ChannelUpdate.point_eq_error_iff]

/-- A closed channel with the largest numbers there are, and with quotes in its texts. -/
def largest : ClosedChannel where
  chanId := 18446744073709551615
  point := "\"aa:0\""
  remotePubKey := "ä\\"
  capacity := -9223372036854775808
  closingHash := ""
  closeHeight := 4294967295
  settledBalance := 9223372036854775807
  closeType := .fundingCanceled

theorem events_keep_updates_largest :
    (ChannelUpdate.closed largest).Sized ∧
      ∃ event, ofUpdate (.closed largest) true .epoch = .ok event ∧
        event.update? = some (.closed largest) ∧ event.point = "\"aa:0\"" ∧
        (∀ other otherEvent, other.Sized → ofUpdate other false .epoch = .ok otherEvent →
          event.type = otherEvent.type → event.payload = otherEvent.payload →
            .closed largest = other) ∧
        ofUpdate (.active ⟨[1, 2, 3], 0⟩) false .epoch = .error ⟨3⟩ := by
  have sized : (ChannelUpdate.closed largest).Sized :=
    List.forall_mem_cons.mpr ⟨⟨Int64.minValue, rfl⟩,
      List.forall_mem_singleton.mpr ⟨Int64.maxValue, rfl⟩⟩
  refine ⟨sized, _, rfl, ?_, rfl, ?_, ?_⟩
  · exact (events_keep_updates.1 _ true .epoch _ sized rfl).1
  · intro other otherEvent otherSized made
    exact events_keep_updates.2.1 _ other true false .epoch .epoch _ otherEvent sized otherSized
      rfl made
  · exact (events_keep_updates.2.2 _ false .epoch _).mpr ⟨[1, 2, 3], 0, rfl, by decide, rfl⟩

end ChannelEvent

end NodeSteward
