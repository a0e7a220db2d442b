import NodeSteward.Workflow.Definition
import NodeSteward.Workflow.Parameter

/-!
# Nodes of a workflow

A node is one step of a version.  Its type selects what it does, and its parameters, kept as a
text, tune it.
-/

namespace NodeSteward

/-- What a node does. -/
inductive NodeType where
  /-- Fires on a fixed interval. -/
  | timeTrigger
  /-- Fires when the balance of a channel moves past a threshold. -/
  | channelBalanceEventTrigger
  /-- Fires when a channel opens. -/
  | channelOpenEventTrigger
  /-- Fires when a channel closes. -/
  | channelCloseEventTrigger
  /-- Narrows the set of channels that is passed on. -/
  | channelFilter
  /-- Computes a new channel policy. -/
  | channelPolicyConfigurator
  /-- Computes and applies a channel policy in one step. -/
  | channelPolicyAutoRun
  /-- Moves liquidity between channels. -/
  | rebalance
  deriving DecidableEq, Repr

namespace NodeType

def all : List NodeType :=
  [.timeTrigger, .channelBalanceEventTrigger, .channelOpenEventTrigger, .channelCloseEventTrigger,
    .channelFilter, .channelPolicyConfigurator, .channelPolicyAutoRun, .rebalance]

/-- The number under which a type is stored. -/
def code : NodeType → Int
  | .timeTrigger => 0
  | .channelBalanceEventTrigger => 1
  | .channelOpenEventTrigger => 2
  | .channelCloseEventTrigger => 3
  | .channelFilter => 4
  | .channelPolicyConfigurator => 5
  | .channelPolicyAutoRun => 6
  | .rebalance => 7

def name : NodeType → String
  | .timeTrigger => "time_trigger"
  | .channelBalanceEventTrigger => "channel_balance_event_trigger"
  | .channelOpenEventTrigger => "channel_open_event_trigger"
  | .channelCloseEventTrigger => "channel_close_event_trigger"
  | .channelFilter => "channel_filter"
  | .channelPolicyConfigurator => "channel_policy_configurator"
  | .channelPolicyAutoRun => "channel_policy_auto_run"
  | .rebalance => "rebalance"

/-- The type stored under a number. -/
def ofCode? (code : Int) : Option NodeType :=
  all.find? (fun type => type.code == code)

/-- True for the types that start a workflow. -/
def isTrigger : NodeType → Bool
  | .timeTrigger => true
  | .channelBalanceEventTrigger => true
  | .channelOpenEventTrigger => true
  | .channelCloseEventTrigger => true
  | _ => false

def decode? (source : Source) : Option NodeType :=
  source.case? all name

def toJson (type : NodeType) : Json :=
  .text type.name

end NodeType

/-- A node without an identifier. -/
structure NewNode where
  versionId : VersionId
  name : String
  type : NodeType
  status : Status
  /-- The text of the parameters. -/
  parameters : String
  /-- Hints on the layout for the editor, which nothing here interprets. -/
  visibility : String
  createdOn : Timestamp
  updatedOn : Timestamp
  deriving DecidableEq, Repr

/-- A stored node. -/
structure Node extends NewNode where
  id : NodeId
  deriving DecidableEq, Repr

instance : Filed .node Node := ⟨Node.id⟩

namespace NewNode

/-- The stored form under an identifier. -/
def withId (node : NewNode) (id : NodeId) : Node :=
  { node with id }

def members (node : NewNode) : List (String × Json) :=
  [("workflow_version_id", node.versionId.toJson), ("name", .text node.name),
    ("node_type", node.type.toJson), ("status", node.status.toJson),
    ("parameters", .text node.parameters), ("visibility_settings", .text node.visibility),
    ("created_on", node.createdOn.toJson), ("updated_on", node.updatedOn.toJson)]

def toJson (node : NewNode) : Json :=
  .ofMembers node.members

def fields : List String :=
  ["workflow_version_id", "name", "node_type", "status", "parameters", "visibility_settings",
    "created_on", "updated_on"]

def ofSlots? (slots : Source.Slots) : Option NewNode := do
  return {
    versionId := ← slots.required "workflow_version_id" Id.decode?
    name := ← slots.required "name" Source.text?
    type := ← slots.required "node_type" NodeType.decode?
    status := ← slots.required "status" Status.decode?
    parameters := ← slots.required "parameters" Source.text?
    visibility := ← slots.required "visibility_settings" Source.text?
    createdOn := ← slots.required "created_on" Timestamp.decode?
    updatedOn := ← slots.required "updated_on" Timestamp.decode? }

def decode? (source : Source) : Option NewNode :=
  (source.slots? fields).bind ofSlots?

end NewNode

namespace Node

def toJson (node : Node) : Json :=
  .ofMembers (("id", node.id.toJson) :: node.members)

def decode? (source : Source) : Option Node := do
  let slots ← source.slots? ("id" :: NewNode.fields)
  return (← NewNode.ofSlots? slots).withId (← slots.required "id" Id.decode?)

end Node

end NodeSteward
