import NodeSteward.Status
import NodeSteward.Table
import NodeSteward.Time.Reading

/-!
# Workflows and their versions

A workflow is a named automation.  It owns numbered versions, and each version owns nodes and
links of its own, so that making another version active swaps the whole graph at once.  Version
0 is the draft that has not been released.

A record comes in two forms: as it is handed to the store, and with the identifier that the
store gave it.
-/

namespace NodeSteward

/-- A workflow without an identifier. -/
structure NewWorkflow where
  name : String
  /-- A classification that the editor chooses and nothing here interprets. -/
  workflowType : Int32
  status : Status
  createdOn : Timestamp
  updatedOn : Timestamp
  deriving DecidableEq, Repr

/-- A stored workflow. -/
structure Workflow extends NewWorkflow where
  id : WorkflowId
  deriving DecidableEq, Repr

/-- A version without an identifier. -/
structure NewVersion where
  workflowId : WorkflowId
  number : Int32
  name : String
  status : Status
  createdOn : Timestamp
  updatedOn : Timestamp
  deriving DecidableEq, Repr

/-- A stored version. -/
structure Version extends NewVersion where
  id : VersionId
  deriving DecidableEq, Repr

instance : Filed .workflow Workflow := ⟨Workflow.id⟩

instance : Filed .version Version := ⟨Version.id⟩

namespace NewWorkflow

/-- The stored form under an identifier. -/
def withId (workflow : NewWorkflow) (id : WorkflowId) : Workflow :=
  { workflow with id }

def members (workflow : NewWorkflow) : List (String × Json) :=
  [("name", .text workflow.name), ("workflow_type", .ofInt workflow.workflowType.toInt),
    ("status", workflow.status.toJson), ("created_on", workflow.createdOn.toJson),
    ("updated_on", workflow.updatedOn.toJson)]

def toJson (workflow : NewWorkflow) : Json :=
  .ofMembers workflow.members

def fields : List String :=
  ["name", "workflow_type", "status", "created_on", "updated_on"]

def ofSlots? (slots : Source.Slots) : Option NewWorkflow := do
  return {
    name := ← slots.required "name" Source.text?
    workflowType := ← slots.required "workflow_type" Source.int32?
    status := ← slots.required "status" Status.decode?
    createdOn := ← slots.required "created_on" Timestamp.decode?
    updatedOn := ← slots.required "updated_on" Timestamp.decode? }

def decode? (source : Source) : Option NewWorkflow :=
  (source.slots? fields).bind ofSlots?

end NewWorkflow

namespace Workflow

def toJson (workflow : Workflow) : Json :=
  .ofMembers (("id", workflow.id.toJson) :: workflow.members)

def decode? (source : Source) : Option Workflow := do
  let slots ← source.slots? ("id" :: NewWorkflow.fields)
  return (← NewWorkflow.ofSlots? slots).withId (← slots.required "id" Id.decode?)

end Workflow

namespace NewVersion

/-- The stored form under an identifier. -/
def withId (version : NewVersion) (id : VersionId) : Version :=
  { version with id }

def members (version : NewVersion) : List (String × Json) :=
  [("workflow_id", version.workflowId.toJson), ("version", .ofInt version.number.toInt),
    ("name", .text version.name), ("status", version.status.toJson),
    ("created_on", version.createdOn.toJson), ("updated_on", version.updatedOn.toJson)]

def toJson (version : NewVersion) : Json :=
  .ofMembers version.members

def fields : List String :=
  ["workflow_id", "version", "name", "status", "created_on", "updated_on"]

def ofSlots? (slots : Source.Slots) : Option NewVersion := do
  return {
    workflowId := ← slots.required "workflow_id" Id.decode?
    number := ← slots.required "version" Source.int32?
    name := ← slots.required "name" Source.text?
    status := ← slots.required "status" Status.decode?
    createdOn := ← slots.required "created_on" Timestamp.decode?
    updatedOn := ← slots.required "updated_on" Timestamp.decode? }

def decode? (source : Source) : Option NewVersion :=
  (source.slots? fields).bind ofSlots?

end NewVersion

namespace Version

/-- True for the version that has not been released. -/
def isDraft (version : Version) : Bool :=
  version.number == 0

def toJson (version : Version) : Json :=
  .ofMembers (("id", version.id.toJson) :: version.members)

def decode? (source : Source) : Option Version := do
  let slots ← source.slots? ("id" :: NewVersion.fields)
  return (← NewVersion.ofSlots? slots).withId (← slots.required "id" Id.decode?)

end Version

end NodeSteward
