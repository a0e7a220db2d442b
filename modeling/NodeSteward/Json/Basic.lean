import NodeSteward.Number.Double

/-!
# JSON values

A number is an integer when it is written without fraction and exponent and fits a signed or an
unsigned word of 64 bits, and a binary floating-point number otherwise.  The members of an
object are kept in the order in which they are written; `Json.ofMembers` builds the ordered
form, in which names ascend and each stands once.
-/

namespace NodeSteward

/-- A JSON number. -/
inductive JsonNumber where
  | integer (value : Int)
  | double (value : Double)
  deriving DecidableEq, Repr

/-- A JSON value. -/
inductive Json where
  | null
  | boolean (value : Bool)
  | number (value : JsonNumber)
  | text (value : String)
  | list (items : List Json)
  | object (members : List (String × Json))
  deriving Repr

namespace Json

/-- How many lists and objects may stand inside one another in a text that is decoded. -/
def nestingLimit : Nat := 127

/-- Puts a member at its place among members whose names ascend; a member of the same name is
replaced. -/
def insertMember (name : String) (value : Json) :
    List (String × Json) → List (String × Json)
  | [] => [(name, value)]
  | (other, held) :: rest =>
    if name = other then (name, value) :: rest
    else if name < other then (name, value) :: (other, held) :: rest
    else (other, held) :: insertMember name value rest

/-- The ordered form of some members, where the last of several of one name counts. -/
def orderedMembers (members : List (String × Json)) : List (String × Json) :=
  members.foldl (fun ordered member => insertMember member.1 member.2 ordered) []

/-- An object with its members in the order of their names. -/
def ofMembers (members : List (String × Json)) : Json :=
  .object (orderedMembers members)

def ofInt (value : Int) : Json := .number (.integer value)

def ofNat (value : Nat) : Json := .number (.integer value)

/-- The value, or `null` where there is none. -/
def ofOption {α : Type} (encode : α → Json) : Option α → Json
  | none => .null
  | some value => encode value

def ofList {α : Type} (encode : α → Json) (values : List α) : Json :=
  .list (values.map encode)

/-- The member of the given name. -/
def member? (name : String) : List (String × Json) → Option Json
  | [] => none
  | (other, value) :: rest => if other = name then some value else member? name rest

/-- The value of a number that is an integer and fits a signed word of 64 bits. -/
def asInt64? : Json → Option Int
  | .number (.integer value) =>
    if -0x8000000000000000 ≤ value ∧ value < 0x8000000000000000 then some value else none
  | _ => none

end Json

end NodeSteward
