import NodeSteward.Workflow.Node

/-!
# The log of node runs

Every run of a node is written down once and never changed.  A query returns the newest entries
and no more than a fixed number of them.
-/

namespace NodeSteward

/-- One recorded run of a node. -/
structure LogEntry where
  /-- The Lightning node for which the run acted. -/
  lightningNode : Int
  /-- Ties together all entries that one firing of a trigger produced. -/
  triggerReference : String
  inputData : String
  outputData : String
  debugData : String
  errorData : String
  /-- The workflow node that ran. -/
  node : NodeId
  /-- The trigger that started the run, where it is not the node that ran. -/
  triggeredBy : Option NodeId
  createdOn : Timestamp
  deriving DecidableEq, Repr

namespace LogEntry

/-- The largest number of entries that a query returns. -/
def maxResults : Int := 500

/-- The number of entries that a query with the given limit may return. -/
def clampLimit (limit : Int) : Int :=
  max 0 (min limit maxResults)

/-- An entry for a run without any data. -/
def ofRun (lightningNode : Int) (node : NodeId) (triggerReference : String)
    (createdOn : Timestamp) : LogEntry where
  lightningNode
  triggerReference
  inputData := ""
  outputData := ""
  debugData := ""
  errorData := ""
  node
  triggeredBy := none
  createdOn

/-- The order of entries in an answer: the newest first. -/
def newestFirst (first second : LogEntry) : Bool :=
  !first.createdOn.before second.createdOn

def toJson (entry : LogEntry) : Json :=
  .ofMembers
    [("node_id", .ofInt entry.lightningNode), ("trigger_reference", .text entry.triggerReference),
      ("input_data", .text entry.inputData), ("output_data", .text entry.outputData),
      ("debug_data", .text entry.debugData), ("error_data", .text entry.errorData),
      ("workflow_version_node_id", entry.node.toJson),
      ("triggered_workflow_version_node_id", .ofOption Id.toJson entry.triggeredBy),
      ("created_on", entry.createdOn.toJson)]

def decode? (source : Source) : Option LogEntry := do
  let slots ← source.slots?
    ["node_id", "trigger_reference", "input_data", "output_data", "debug_data", "error_data",
      "workflow_version_node_id", "triggered_workflow_version_node_id", "created_on"]
  return {
    lightningNode := ← slots.required "node_id" Source.int64?
    triggerReference := ← slots.required "trigger_reference" Source.text?
    inputData := ← slots.required "input_data" Source.text?
    outputData := ← slots.required "output_data" Source.text?
    debugData := ← slots.required "debug_data" Source.text?
    errorData := ← slots.required "error_data" Source.text?
    node := ← slots.required "workflow_version_node_id" Id.decode?
    triggeredBy := ← slots.optional "triggered_workflow_version_node_id" Id.decode?
    createdOn := ← slots.required "created_on" Timestamp.decode? }

end LogEntry

end NodeSteward
