import NodeSteward.Channel.Event
import NodeSteward.Proofs.Channel.Outpoint

/-!
# The channel points of binary outpoints

An update that carries a funding outpoint in bytes has its channel point written from them: the
bytes of the transaction in reverse, each in two hexadecimal digits, and behind a colon the number
of the output.  A channel that is created for this text splits it again.  The digits of the number
have no colon, so that the last colon is the one that was written, and no part of the outpoint gets
lost on the way.
-/

namespace NodeSteward

/-- The name of a transaction: its bytes from the last to the first, each in two lower-case
hexadecimal digits. -/
def transactionHash (txid : List UInt8) : String :=
  String.ofList (txid.reverse.flatMap fun byte =>
    [Nat.digitChar (byte.toNat / 16), Nat.digitChar (byte.toNat % 16)])

/-- The name of the transaction, a colon and the output in decimal digits. -/
def outpointText (txid : List UInt8) (output : UInt32) : String :=
  transactionHash txid ++ ":" ++ output.toNat.repr

variable {txid : List UInt8} {output : UInt32} {point : String}

theorem Hex.digitChar_eq {value : Nat} (small : value < 16) :
    Hex.digitChar value = Nat.digitChar value := by
  have all : ∀ digit : Fin 16, Hex.digitChar digit = Nat.digitChar digit := by decide
  exact all ⟨value, small⟩

theorem Hex.encode_eq_flatMap (bytes : List UInt8) :
    Hex.encode bytes = bytes.flatMap fun byte =>
      [Nat.digitChar (byte.toNat / 16), Nat.digitChar (byte.toNat % 16)] := by
  rw [Hex.encode]
  congr
  funext byte
  have bound := byte.toNat_lt
  rw [Hex.digitChar_eq (by omega), Hex.digitChar_eq (by omega)]

theorem toList_outpointText (txid : List UInt8) (output : UInt32) :
    (outpointText txid output).toList =
      Hex.encode txid.reverse ++ ':' :: Decimal.digits output.toNat := by
  simp [outpointText, transactionHash, Hex.encode_eq_flatMap, Decimal.digits_eq_toDigits]

/-- A channel point is written for 32 bytes, and it is the text of the outpoint. -/
theorem channelPoint_eq_ok_iff :
    channelPoint txid output = .ok point ↔
      txid.length = 32 ∧ point = outpointText txid output := by
  rw [channelPoint]
  split
  · rename_i whole
    rw [← toList_outpointText, String.ofList_toList, Except.ok.injEq]
    simp [whole, eq_comm]
  · rename_i other
    simp [other]

theorem channelPoint_eq_error_iff {cause : OutpointError} :
    channelPoint txid output = .error cause ↔ txid.length ≠ 32 ∧ cause = ⟨txid.length⟩ := by
  rw [channelPoint]
  split
  · rename_i whole
    simp [whole]
  · rename_i other
    simp [other, eq_comm]

namespace NewChannel

theorem splitLastColon?_of_not_mem {text : List Char} (noColon : ':' ∉ text) :
    splitLastColon? text = none := by
  cases split : splitLastColon? text with
  | none => rfl
  | some parts =>
    apply absurd _ noColon
    simp [(splitLastColon?_eq_some split).1]

theorem splitLastColon?_append {front back : List Char} (noColon : ':' ∉ back) :
    splitLastColon? (front ++ ':' :: back) = some (front, back) := by
  induction front with
  | nil => simp [splitLastColon?, splitLastColon?_of_not_mem noColon]
  | cons c front ih => simp [splitLastColon?, ih]

theorem fundingOutpoint_of_outpointText {channel : NewChannel}
    (named : channel.point = outpointText txid output) :
    channel.fundingOutpoint = (transactionHash txid, output) := by
  have spells := Decimal.spells_digits output.toNat
  have read : Decimal.readNat Decimal.maxUInt32 (Decimal.digits output.toNat) =
      .ok output.toNat :=
    Decimal.readNat_eq_ok_iff.mpr ⟨.unsigned spells, Nat.le_of_lt_succ output.toNat_lt⟩
  rw [fundingOutpoint, named, toList_outpointText, splitLastColon?_append (spells.not_mem rfl)]
  simp [read, transactionHash, Hex.encode_eq_flatMap]

end NewChannel

/-- The outpoint can be read off its text. -/
theorem outpointText_inj {otherTxid : List UInt8} {otherOutput : UInt32}
    (same : outpointText txid output = outpointText otherTxid otherOutput) :
    txid = otherTxid ∧ output = otherOutput := by
  let channel := NewChannel.ofPoint (outpointText txid output) .opening .epoch
  have named : channel.fundingOutpoint = (transactionHash txid, output) :=
    NewChannel.fundingOutpoint_of_outpointText rfl
  rw [NewChannel.fundingOutpoint_of_outpointText same, Prod.mk.injEq] at named
  rcases named with ⟨sameHash, sameOutput⟩
  rw [transactionHash, transactionHash, String.ofList_inj, ← Hex.encode_eq_flatMap,
    ← Hex.encode_eq_flatMap] at sameHash
  have sameBytes := congrArg Hex.read? sameHash
  rw [Hex.read?_encode, Hex.read?_encode, Option.some_inj, List.reverse_inj] at sameBytes
  exact ⟨sameBytes.symm, sameOutput.symm⟩

/-- Every outpoint of 32 bytes has a channel point, from which a new channel gets the name of the
transaction and the output.  No two outpoints share one, and bytes of another number have none. -/
theorem outpoint_points_exact :
    (∀ (txid : List UInt8) (output : UInt32), txid.length = 32 →
      ∃ point, channelPoint txid output = .ok point ∧
        ∀ (channel : NewChannel) (id : ChannelId), channel.point = point →
          (channel.withId id).fundingHash = transactionHash txid ∧
          (channel.withId id).fundingOutput = output) ∧
    (∀ (txid otherTxid : List UInt8) (output otherOutput : UInt32) (point : String),
      channelPoint txid output = .ok point → channelPoint otherTxid otherOutput = .ok point →
        txid = otherTxid ∧ output = otherOutput) ∧
    ∀ (txid : List UInt8) (output : UInt32), txid.length ≠ 32 →
      channelPoint txid output = .error ⟨txid.length⟩ := by
  refine ⟨?_, ?_, ?_⟩
  · intro txid output whole
    refine ⟨_, channelPoint_eq_ok_iff.mpr ⟨whole, rfl⟩, ?_⟩
    intro channel id named
    have outpoint := NewChannel.fundingOutpoint_of_outpointText named
    rw [NewChannel.withId, outpoint]
    exact ⟨rfl, rfl⟩
  · intro txid otherTxid output otherOutput point first second
    apply outpointText_inj
    rw [← (channelPoint_eq_ok_iff.mp first).2, ← (channelPoint_eq_ok_iff.mp second).2]
  · intro txid output other
    exact channelPoint_eq_error_iff.mpr ⟨other, rfl⟩

/-- The first byte of the transaction comes last, and the output is the largest there is. -/
theorem outpoint_points_exact_largest :
    (1 :: List.replicate 30 0 ++ [255] : List UInt8).length = 32 ∧
      ([1, 2, 3] : List UInt8).length ≠ 32 ∧
      ∃ point, channelPoint (1 :: List.replicate 30 0 ++ [255]) 4294967295 = .ok point ∧
        point = "ff00000000000000000000000000000000000000000000000000000000000001:4294967295" ∧
        ((NewChannel.ofPoint point .opening .epoch).withId ⟨1⟩).fundingOutput = 4294967295 ∧
        (∀ output, channelPoint (1 :: List.replicate 30 0 ++ [255]) output = .ok point →
          4294967295 = output) ∧
        channelPoint [1, 2, 3] 0 = .error ⟨3⟩ := by
  have whole : (1 :: List.replicate 30 0 ++ [255] : List UInt8).length = 32 := by decide
  have short : ([1, 2, 3] : List UInt8).length ≠ 32 := by decide
  rcases outpoint_points_exact.1 _ 4294967295 whole with ⟨point, written, created⟩
  have text := (channelPoint_eq_ok_iff.mp written).2
  refine ⟨whole, short, point, written, ?_, ?_, ?_, outpoint_points_exact.2.2 _ 0 short⟩
  · rw [text]
    decide +kernel
  · exact (created (.ofPoint point .opening .epoch) ⟨1⟩ rfl).2
  · intro output again
    exact (outpoint_points_exact.2.1 _ _ _ _ point written again).2

end NodeSteward
