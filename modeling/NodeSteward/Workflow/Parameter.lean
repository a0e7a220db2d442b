import NodeSteward.Json.Decode
import NodeSteward.Json.Printer
import NodeSteward.Text.Blank

/-!
# Node parameters

What a node does is tuned by records, each with a type and further fields.  They are kept as a
text: an object with the list `parameters`, whose items hold their type and their fields side by
side.  The type is any text, so that records of types unknown here are kept; a look-up never
finds them.  An empty text stands for no records.
-/

namespace NodeSteward

/-- The types of records that are looked up. -/
inductive ParameterType where
  /-- The interval of a time trigger. -/
  | timeInSeconds
  /-- The channels to which a node applies. -/
  | channelIds
  /-- A threshold of the balance as a percentage of the capacity. -/
  | balanceShiftPercent
  /-- The proportional fee in millionths. -/
  | feeRatePpm
  /-- The base fee in thousandths of a satoshi. -/
  | baseFeeMsat
  /-- The least payment to forward. -/
  | minHtlcMsat
  /-- The largest payment to forward. -/
  | maxHtlcMsat
  /-- The amount that a rebalance moves. -/
  | amountMsat
  deriving DecidableEq, Repr

namespace ParameterType

def all : List ParameterType :=
  [.timeInSeconds, .channelIds, .balanceShiftPercent, .feeRatePpm, .baseFeeMsat, .minHtlcMsat,
    .maxHtlcMsat, .amountMsat]

def name : ParameterType → String
  | .timeInSeconds => "timeInSeconds"
  | .channelIds => "channelIds"
  | .balanceShiftPercent => "balanceShiftPercent"
  | .feeRatePpm => "feeRatePpm"
  | .baseFeeMsat => "baseFeeMsat"
  | .minHtlcMsat => "minHtlcMsat"
  | .maxHtlcMsat => "maxHtlcMsat"
  | .amountMsat => "amountMsat"

end ParameterType

/-- One record: its type and its other fields in ascending order of their names. -/
structure Parameter where
  type : String
  fields : List (String × Json)
  deriving Repr

namespace Parameter

/-- The record without type and fields, which a failed look-up yields. -/
def empty : Parameter := ⟨"", []⟩

/-- A record with the single field `value`. -/
def ofValue (type : ParameterType) (value : Json) : Parameter :=
  ⟨type.name, [("value", value)]⟩

def isEmpty (parameter : Parameter) : Bool :=
  parameter.type.isEmpty && parameter.fields.isEmpty

/-- The field `value`. -/
def value? (parameter : Parameter) : Option Json :=
  Json.member? "value" parameter.fields

/-- The field `value` where it is an integer of 64 bits. -/
def intValue? (parameter : Parameter) : Option Int :=
  parameter.value?.bind Json.asInt64?

/-- The record as an object whose first member is the type. -/
def toJson (parameter : Parameter) : Json :=
  .object (("type", .text parameter.type) :: parameter.fields)

/-- Reads the members of a record, the last first: the type may stand once, and of other members
of one name the last counts. -/
def collect (nesting : Nat) :
    List (Option String × Source) → Option (Option String × List (String × Json))
  | [] => some (none, [])
  | (none, _) :: _ => none
  | (some name, source) :: rest =>
    match collect nesting rest with
    | none => none
    | some (type, members) =>
      if name = "type" then
        match type, source.text? with
        | none, some value => some (some value, members)
        | _, _ => none
      else
        (source.toJson? nesting).map (fun value => (type, (name, value) :: members))

/-- Decodes a record, which has to be written as an object, whose values hold at most `nesting`
lists and objects inside one another. -/
def decode? (nesting : Nat) : Source → Option Parameter
  | .object members =>
    (collect nesting members).map (fun (type, fields) =>
      ⟨type.getD "", Json.orderedMembers fields⟩)
  | _ => none

end Parameter

/-- The records of a node. -/
structure Parameters where
  records : List Parameter
  deriving Repr

namespace Parameters

def empty : Parameters := ⟨[]⟩

/-- The first record of a type, or the empty record. -/
def get (parameters : Parameters) (type : ParameterType) : Parameter :=
  (parameters.records.find? (fun record => record.type == type.name)).getD .empty

def toJson (parameters : Parameters) : Json :=
  .object [("parameters", .ofList Parameter.toJson parameters.records)]

/-- The text in which a node keeps its records. -/
def toText (parameters : Parameters) : String :=
  parameters.toJson.toText

/-- Decodes the records; the list and the object around a record count as nesting. -/
def decode? (source : Source) : Option Parameters := do
  let slots ← source.slots? ["parameters"]
  let records ← slots.withDefault "parameters"
    (Source.list? (Parameter.decode? (Json.nestingLimit - 3))) []
  return ⟨records⟩

/-- Reads the text of a node; a blank text holds no records. -/
def ofText? (text : String) : Option Parameters :=
  if Text.allBlank text then some .empty else (Source.ofText? text).bind decode?

end Parameters

end NodeSteward
