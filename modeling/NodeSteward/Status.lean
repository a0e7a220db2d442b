import NodeSteward.Json.Decode

/-!
# Status of workflow records

Workflows, versions and nodes share one status, which says whether they take part in automation.
It is stored as a small number.
-/

namespace NodeSteward

/-- Whether a record takes part in automation. -/
inductive Status where
  /-- Present but not eligible to run. -/
  | inactive
  /-- Eligible to run. -/
  | active
  /-- Deleted, though the record is kept. -/
  | deleted
  deriving DecidableEq, Repr

namespace Status

def all : List Status := [.inactive, .active, .deleted]

/-- The number under which a status is stored. -/
def code : Status → Int
  | .inactive => 0
  | .active => 1
  | .deleted => 2

def name : Status → String
  | .inactive => "inactive"
  | .active => "active"
  | .deleted => "deleted"

/-- The status stored under a number. -/
def ofCode? (code : Int) : Option Status :=
  all.find? (fun status => status.code == code)

def isActive : Status → Bool
  | .active => true
  | _ => false

def decode? (source : Source) : Option Status :=
  source.case? all name

def toJson (status : Status) : Json :=
  .text status.name

end Status

end NodeSteward
