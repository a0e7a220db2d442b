import NodeSteward.Json.Decode
import NodeSteward.Text.Decimal
import NodeSteward.Text.Quoted

/-!
# Short channel identifiers

A short channel identifier says where in the chain a channel was funded: the height of the
block, the place of the transaction in the block and the output of the transaction.  The three
parts have 24, 24 and 16 bits, so that they fill a word of 64 bits when they are packed, the
height uppermost.  As a text they are written with an `x` between them.
-/

namespace NodeSteward

/-- Where in the chain a channel was funded. -/
structure ShortChannelId where
  blockHeight : Fin 0x1000000
  txIndex : Fin 0x1000000
  outputIndex : Fin 0x10000
  deriving DecidableEq, Repr

/-- Why there is no such short channel identifier. -/
inductive ShortChannelIdError where
  /-- The text is not three numbers with an `x` between them. -/
  | malformed (input : String)
  /-- A part is too large. -/
  | outOfRange (field : String) (value : Nat)
  deriving DecidableEq, Repr

namespace ShortChannelIdError

def message : ShortChannelIdError → String
  | .malformed input => "malformed short channel id: " ++ Text.quoted input
  | .outOfRange field value =>
    "short channel id " ++ field ++ " out of range: " ++ Decimal.natText value

end ShortChannelIdError

namespace ShortChannelId

/-- The identifier with the given parts; the height is checked first. -/
def ofParts (blockHeight txIndex : Nat) (outputIndex : Fin 0x10000) :
    Except ShortChannelIdError ShortChannelId :=
  if fitsBlock : blockHeight < 0x1000000 then
    if fitsTx : txIndex < 0x1000000 then
      .ok ⟨⟨blockHeight, fitsBlock⟩, ⟨txIndex, fitsTx⟩, outputIndex⟩
    else .error (.outOfRange "tx index" txIndex)
  else .error (.outOfRange "block height" blockHeight)

/-- The parts of a packed identifier.  Every word is one. -/
def ofPacked (packed : UInt64) : ShortChannelId where
  blockHeight := ⟨packed.toNat / 0x10000000000, by have := packed.toNat_lt; omega⟩
  txIndex := ⟨packed.toNat / 0x10000 % 0x1000000, Nat.mod_lt _ (by decide)⟩
  outputIndex := ⟨packed.toNat % 0x10000, Nat.mod_lt _ (by decide)⟩

/-- The packed identifier as a number. -/
def packedNat (id : ShortChannelId) : Nat :=
  (id.blockHeight.val * 0x1000000 + id.txIndex.val) * 0x10000 + id.outputIndex.val

/-- The packed identifier. -/
def packed (id : ShortChannelId) : UInt64 :=
  UInt64.ofNat id.packedNat

theorem packedNat_lt (id : ShortChannelId) : id.packedNat < 0x10000000000000000 := by
  have := id.blockHeight.isLt
  have := id.txIndex.isLt
  have := id.outputIndex.isLt
  unfold packedNat
  omega

theorem toNat_packed (id : ShortChannelId) : id.packed.toNat = id.packedNat := by
  rw [packed, UInt64.toNat_ofNat', Nat.mod_eq_of_lt (packedNat_lt id)]

/-- True when the first identifier comes before the second or is the same: by height, then by
transaction, then by output. -/
def le (first second : ShortChannelId) : Bool :=
  first.blockHeight < second.blockHeight ||
    (first.blockHeight == second.blockHeight &&
      (first.txIndex < second.txIndex ||
        (first.txIndex == second.txIndex && first.outputIndex ≤ second.outputIndex)))

/-- The characters of an identifier. -/
def chars (id : ShortChannelId) : List Char :=
  Decimal.digits id.blockHeight.val ++ 'x' :: Decimal.digits id.txIndex.val ++
    'x' :: Decimal.digits id.outputIndex.val

def text (id : ShortChannelId) : String :=
  String.ofList id.chars

/-- The form with the names of the parts, which messages show. -/
def named (id : ShortChannelId) : String :=
  "ShortChannelId \x7b block_height: " ++ Decimal.natText id.blockHeight.val ++
    ", tx_index: " ++ Decimal.natText id.txIndex.val ++
    ", output_index: " ++ Decimal.natText id.outputIndex.val ++ " \x7d"

/-- Splits at every `x`. -/
def splitParts : List Char → List (List Char)
  | [] => [[]]
  | c :: rest =>
    if c = 'x' then [] :: splitParts rest
    else
      match splitParts rest with
      | [] => [[c]]
      | first :: others => (c :: first) :: others

/-- Reads an identifier.  Each part is first read as a word of 64 bits; then the parts are held
against words of 32, 32 and 16 bits, and last against 24 bits. -/
def ofChars (input : List Char) : Except ShortChannelIdError ShortChannelId :=
  match splitParts input with
  | [block, tx, output] =>
    match Decimal.readNat Decimal.maxUInt64 block, Decimal.readNat Decimal.maxUInt64 tx,
      Decimal.readNat Decimal.maxUInt64 output with
    | .ok block, .ok tx, .ok output =>
      if 0x100000000 ≤ block then .error (.outOfRange "block height" block)
      else if 0x100000000 ≤ tx then .error (.outOfRange "tx index" tx)
      else if fits : output < 0x10000 then ofParts block tx ⟨output, fits⟩
      else .error (.outOfRange "output index" output)
    | _, _, _ => .error (.malformed (String.ofList input))
  | _ => .error (.malformed (String.ofList input))

def ofText (input : String) : Except ShortChannelIdError ShortChannelId :=
  ofChars input.toList

def decode? (source : Source) : Option ShortChannelId :=
  source.text?.bind (fun input => (ofText input).toOption)

def toJson (id : ShortChannelId) : Json :=
  .text id.text

end ShortChannelId

end NodeSteward
