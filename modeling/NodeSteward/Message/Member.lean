import NodeSteward.Json.Decode
import NodeSteward.Time.Timer
import NodeSteward.Time.Timestamp

/-!
# Members of messages

A message is an object.  Unlike a record it is read leniently: members that nobody asks for are
passed over, of several members with one name the last counts, and `null` stands for a member
that is not there.  Instants are whole nanoseconds since the start of 1970, and lengths of time
are whole milliseconds.
-/

namespace NodeSteward

namespace Source

/-- The member of the given name. -/
def member? (name : String) : Source → Option Source
  | .object members =>
    (members.reverse.find? (fun member => member.1 == some name)).map Prod.snd
  | _ => none

/-- The member of the given name, unless it is `null`. -/
def given? (message : Source) (name : String) : Option Source :=
  match message.member? name with
  | some .null => none
  | found => found

variable {α : Type}

/-- A member that a message has to have. -/
def wanted (message : Source) (name : String) (decode : Source → Option α) : Option α :=
  (message.given? name).bind decode

/-- A member with a value for the case that it is not there. -/
def orElse (message : Source) (name : String) (decode : Source → Option α) (absent : α) :
    Option α :=
  match message.given? name with
  | none => some absent
  | some found => decode found

/-- A member that may be missing. -/
def optionally (message : Source) (name : String) (decode : Source → Option α) :
    Option (Option α) :=
  match message.given? name with
  | none => some none
  | some found => (decode found).map some

/-- An integer of any size. -/
def whole? : Source → Option Int
  | .number (some (.integer value)) => some value
  | _ => none

def natural? (source : Source) : Option Nat :=
  source.whole?.bind (fun value => if 0 ≤ value then some value.toNat else none)

/-- An instant of the civil clock. -/
def instant? (source : Source) : Option Timestamp :=
  source.whole?.map Timestamp.ofNanos

/-- A length of time. -/
def millis? (source : Source) : Option Nat :=
  source.natural?.map Timer.ofMillis

def items? : Source → Option (List Source)
  | .list items => some items
  | _ => none

def members? : Source → Option (List (String × Source))
  | .object members => members.mapM (fun (name, value) => name.map (fun name => (name, value)))
  | _ => none

end Source

end NodeSteward
