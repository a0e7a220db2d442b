import NodeSteward.Json.Source

/-!
# Decoding records

A record may be written as an object, whose members stand in any order, or as the list of its
fields in their order.  Members that the record does not have are passed over unread; a member
that it has may stand only once.  A field that is not written is an error unless it has a value
of its own for that case.  An optional field counts as absent where an object leaves it out, but
a list has to hold a place for it.
-/

namespace NodeSteward

namespace Source

def boolean? : Source → Option Bool
  | .boolean value => some value
  | _ => none

def text? : Source → Option String
  | .text value => value
  | _ => none

/-- An integer from `lowest` to `highest`.  A number with a fraction or an exponent is not an
integer, whatever its value. -/
def integer? (lowest highest : Int) : Source → Option Int
  | .number (some (.integer value)) => if lowest ≤ value ∧ value ≤ highest then some value else none
  | _ => none

def int64? (source : Source) : Option Int :=
  source.integer? (-0x8000000000000000) 0x7fffffffffffffff

def int32? (source : Source) : Option Int32 :=
  (source.integer? (-0x80000000) 0x7fffffff).map Int32.ofInt

def uint64? (source : Source) : Option UInt64 :=
  (source.integer? 0 0xffffffffffffffff).map (fun value => UInt64.ofNat value.toNat)

def uint32? (source : Source) : Option UInt32 :=
  (source.integer? 0 0xffffffff).map (fun value => UInt32.ofNat value.toNat)

def byte? (source : Source) : Option UInt8 :=
  (source.integer? 0 255).map (fun value => UInt8.ofNat value.toNat)

/-- A list, each item of which `decode` understands. -/
def list? {α : Type} (decode : Source → Option α) : Source → Option (List α)
  | .list items => items.mapM decode
  | _ => none

/-- A value or `null`. -/
def optional? {α : Type} (decode : Source → Option α) : Source → Option (Option α)
  | .null => some none
  | source => (decode source).map some

/-- The name of a case without content: a string, or an object whose only member is `null`. -/
def caseName? : Source → Option String
  | .text value => value
  | .object [(name, .null)] => name
  | _ => none

/-- One of several cases without content, found by its name. -/
def case? {α : Type} (cases : List α) (name : α → String) (source : Source) : Option α :=
  source.caseName?.bind (fun wanted => cases.find? (fun value => name value == wanted))

/-- What a text holds for the fields of a record. -/
structure Slots where
  /-- True when the record is written as the list of its fields. -/
  listed : Bool
  held : List (String × Source)

/-- Collects the members with the given names; no name may stand twice. -/
def collect (names : List String) (held : List (String × Source)) :
    List (Option String × Source) → Option (List (String × Source))
  | [] => some held
  | (none, _) :: _ => none
  | (some name, source) :: rest =>
    if name ∈ names then
      if (held.lookup name).isSome then none else collect names ((name, source) :: held) rest
    else collect names held rest

/-- The fields of a record with the given names, in their order. -/
def slots? (names : List String) : Source → Option Slots
  | .object members => (collect names [] members).map (fun held => ⟨false, held⟩)
  | .list items => if names.length < items.length then none else some ⟨true, names.zip items⟩
  | _ => none

namespace Slots

/-- A field that has to be written. -/
def required {α : Type} (slots : Slots) (name : String) (decode : Source → Option α) : Option α :=
  (slots.held.lookup name).bind decode

/-- A field that may be `null` or left out of an object. -/
def optional {α : Type} (slots : Slots) (name : String) (decode : Source → Option α) :
    Option (Option α) :=
  match slots.held.lookup name with
  | some source => source.optional? decode
  | none => if slots.listed then none else some none

/-- A field with a value for the case that it is not written. -/
def withDefault {α : Type} (slots : Slots) (name : String) (decode : Source → Option α)
    (absent : α) : Option α :=
  match slots.held.lookup name with
  | some source => decode source
  | none => some absent

end Slots

end Source

end NodeSteward
