import NodeSteward.Message.Member
import NodeSteward.Schedule.Dispatcher
import NodeSteward.Workflow.Edit
import NodeSteward.Workflow.Tree

/-!
# Messages about workflows

A message names what it wants, and holds what it hands over in members of its own: `workflow`,
`version`, `node` and `link` are identifiers, `number` is the number of a version.  New records
are stamped with the instant of the message; records that replace others carry no instants.
-/

namespace NodeSteward

namespace NewWorkflow

def ofMessage? (now : Timestamp) (message : Source) : Option NewWorkflow := do
  return {
    name := ← message.orElse "name" Source.text? ""
    workflowType := ← message.orElse "workflow_type" Source.int32? 0
    status := ← message.orElse "status" Status.decode? .inactive
    createdOn := now
    updatedOn := now }

end NewWorkflow

namespace NewVersion

def ofMessage? (now : Timestamp) (message : Source) : Option NewVersion := do
  return {
    workflowId := ← message.wanted "workflow" Id.decode?
    number := ← message.orElse "number" Source.int32? 0
    name := ← message.orElse "name" Source.text? ""
    status := ← message.orElse "status" Status.decode? .inactive
    createdOn := now
    updatedOn := now }

end NewVersion

namespace NewNode

/-- The text of parameters: as it is, or of the payload that the message holds. -/
def parametersText? (source : Source) : Option String :=
  match source.text? with
  | some written => some written
  | none => (Parameters.decode? source).map Parameters.toText

def ofMessage? (now : Timestamp) (message : Source) : Option NewNode := do
  return {
    versionId := ← message.wanted "version" Id.decode?
    name := ← message.orElse "name" Source.text? ""
    type := ← message.wanted "type" NodeType.decode?
    status := ← message.orElse "status" Status.decode? .active
    parameters := ← message.orElse "parameters" parametersText? ""
    visibility := ← message.orElse "visibility" Source.text? ""
    createdOn := now
    updatedOn := now }

end NewNode

namespace NewLink

def ofMessage? (now : Timestamp) (message : Source) : Option NewLink := do
  return {
    versionId := ← message.wanted "version" Id.decode?
    name := ← message.orElse "name" Source.text? ""
    parent := ← message.wanted "parent" Id.decode?
    output := ← message.orElse "output" Source.int32? 0
    child := ← message.wanted "child" Id.decode?
    input := ← message.orElse "input" Source.int32? 0
    visibility := ← message.orElse "visibility" Source.text? ""
    createdOn := now
    updatedOn := now }

end NewLink

namespace Workflow

def ofMessage? (message : Source) : Option Workflow := do
  return (← NewWorkflow.ofMessage? .epoch message).withId (← message.wanted "workflow" Id.decode?)

end Workflow

namespace Version

def ofMessage? (message : Source) : Option Version := do
  return (← NewVersion.ofMessage? .epoch message).withId (← message.wanted "version" Id.decode?)

end Version

namespace Node

def ofMessage? (message : Source) : Option Node := do
  return (← NewNode.ofMessage? .epoch message).withId (← message.wanted "node" Id.decode?)

end Node

namespace Link

def ofMessage? (message : Source) : Option Link := do
  return (← NewLink.ofMessage? .epoch message).withId (← message.wanted "link" Id.decode?)

end Link

namespace LogEntry

def ofMessage? (now : Timestamp) (message : Source) : Option LogEntry := do
  return {
    lightningNode := ← message.orElse "node_id" Source.whole? 1
    triggerReference := ← message.orElse "reference" Source.text? ""
    inputData := ← message.orElse "input" Source.text? ""
    outputData := ← message.orElse "output" Source.text? ""
    debugData := ← message.orElse "debug" Source.text? ""
    errorData := ← message.orElse "error" Source.text? ""
    node := ← message.wanted "node" Id.decode?
    triggeredBy := ← message.optionally "triggered_by" Id.decode?
    createdOn := now }

/-- Some entries, or only their number. -/
def listJson (counted : Bool) (entries : List LogEntry) : Json :=
  if counted then .ofNat entries.length else .ofList toJson entries

end LogEntry

namespace WorkflowEdit

/-- The edit that a message asks for under the given name. -/
def ofMessage? (now : Timestamp) (name : String) (message : Source) : Option WorkflowEdit := do
  match name with
  | "create_workflow" => return .createWorkflow (← NewWorkflow.ofMessage? now message)
  | "update_workflow" => return .updateWorkflow (← Workflow.ofMessage? message)
  | "delete_workflow" => return .deleteWorkflow (← message.wanted "workflow" Id.decode?)
  | "clone_or_create_version" =>
    let version ← NewVersion.ofMessage? now message
    return .cloneOrCreateVersion version.workflowId version.number version.name
  | "update_version" => return .updateVersion (← Version.ofMessage? message)
  | "delete_version" => return .deleteVersion (← message.wanted "version" Id.decode?)
  | "add_node" => return .addNode (← NewNode.ofMessage? now message)
  | "update_node" => return .updateNode (← Node.ofMessage? message)
  | "delete_node" => return .deleteNode (← message.wanted "node" Id.decode?)
  | "add_link" => return .addLink (← NewLink.ofMessage? now message)
  | "update_link" => return .updateLink (← Link.ofMessage? message)
  | "delete_link" => return .deleteLink (← message.wanted "link" Id.decode?)
  | "append_log" => return .appendLog (← LogEntry.ofMessage? now message)
  | _ => none

/-- What an edit returns, as JSON. -/
def encode : (edit : WorkflowEdit) → edit.Value → Json
  | createWorkflow _ => Workflow.toJson
  | updateWorkflow _ => Workflow.toJson
  | deleteWorkflow _ => Json.ofNat
  | cloneOrCreateVersion _ _ _ => Version.toJson
  | updateVersion _ => Version.toJson
  | deleteVersion _ => Json.ofNat
  | addNode _ => Node.toJson
  | updateNode _ => Node.toJson
  | deleteNode _ => Json.ofNat
  | addLink _ => Link.toJson
  | updateLink _ => Link.toJson
  | deleteLink _ => Json.ofNat
  | appendLog _ => LogEntry.toJson

end WorkflowEdit

namespace LinkedNode

/-- The link and the node that it leads to, by their identifiers. -/
def idsJson (linked : LinkedNode) : Json :=
  .list [linked.link.id.toJson, linked.node.id.toJson]

/-- A link with the parent and the child that are connected through it. -/
def byLinkJson (parent child : LinkId → Option Node) (link : LinkId) : Json :=
  .list [link.toJson, .ofOption (fun node => node.id.toJson) (parent link),
    .ofOption (fun node => node.id.toJson) (child link)]

end LinkedNode

namespace NodeView

/-- A view with all its links; after the last one stands a link that does not exist. -/
def details (view : NodeView) : List (String × Json) :=
  [("id", view.id.toJson),
    ("link_details",
      .ofList (fun link => .list [link.id.toJson, .text link.name]) view.linkDetails),
    ("by_link",
      .ofList (LinkedNode.byLinkJson view.parentByLink? view.childByLink?)
        (view.linkDetails.map Link.id ++ [⟨0⟩]))]

/-- The short form of a view: the neighbours by their identifiers only. -/
def brief (view : NodeView) : Json :=
  .object
    [("id", view.id.toJson), ("name", .text view.node.name),
      ("parents", .ofList LinkedNode.idsJson view.parents),
      ("children", .ofList LinkedNode.idsJson view.children)]

end NodeView

namespace WorkflowTree

/-- The identifier of the node at a place. -/
def idJson (tree : WorkflowTree) (place : Place) : Json :=
  .ofOption (fun node => node.id.toJson) (tree.record? place)

/-- A link and the node that it leads to, by their identifiers. -/
def neighbourJson (tree : WorkflowTree) (neighbour : TreeNeighbour) : Json :=
  .list [neighbour.link.id.toJson, tree.idJson neighbour.place]

/-- A node of a graph with its edges. -/
def nodeJson (tree : WorkflowTree) (node : Node) (place : Place) : Json :=
  .object
    [("id", node.id.toJson), ("name", .text node.name),
      ("children", .ofList tree.neighbourJson (tree.children place)),
      ("parents", .ofList tree.neighbourJson (tree.parents place)),
      ("by_link",
        .ofList
          (LinkedNode.byLinkJson
            (fun link => (tree.parentByLink? place link).bind tree.record?)
            (fun link => (tree.childByLink? place link).bind tree.record?))
          ((tree.linkDetails place).map Link.id))]

/-- A graph, and which of some nodes it holds. -/
def toJson (queried : List NodeId) (tree : WorkflowTree) : Json :=
  .object
    [("node_count", .ofNat tree.nodeCount), ("link_count", .ofNat tree.linkCount),
      ("is_empty", .boolean tree.isEmpty),
      ("roots", .ofList (fun node => node.id.toJson) tree.rootNodes),
      ("nodes", .ofList (fun placed => tree.nodeJson placed.1 placed.2) tree.placedById),
      ("shared", .boolean tree.holdsNodesOnce),
      ("has", .ofList (fun id => .boolean (tree.place? id).isSome) queried)]

end WorkflowTree

namespace Dispatch

def toJson (dispatch : Dispatch) : Json :=
  .object
    [("reference", .text dispatch.reference.text), ("trigger", dispatch.trigger.brief),
      ("fired_at", dispatch.firedAt.toJson)]

end Dispatch

/-! ## Single calls -/

namespace WorkflowCall

/-- The call that a message asks for under the given name.  Calls that an edit of the same name
makes too have a longer name. -/
def ofMessage? (now : Timestamp) (name : String) (message : Source) : Option WorkflowCall := do
  match name with
  | "get_workflow" => return .getWorkflow (← message.wanted "workflow" Id.decode?)
  | "get_workflow_by_version_id" => return .getOwner (← message.wanted "version" Id.decode?)
  | "list_workflows" => return .listWorkflows
  | "store.insert_workflow" => return .insertWorkflow (← NewWorkflow.ofMessage? now message)
  | "store.update_workflow" => return .updateWorkflow (← Workflow.ofMessage? message)
  | "get_version" => return .getVersion (← message.wanted "version" Id.decode?)
  | "list_versions" => return .listVersions (← message.wanted "workflow" Id.decode?)
  | "find_version" =>
    return .findVersion (← message.wanted "workflow" Id.decode?)
      (← message.orElse "number" Source.int32? 0)
  | "latest_version" => return .latestVersion (← message.wanted "workflow" Id.decode?)
  | "active_versions" => return .activeVersions
  | "store.insert_version" => return .insertVersion (← NewVersion.ofMessage? now message)
  | "store.update_version" => return .updateVersion (← Version.ofMessage? message)
  | "get_node" => return .getNode (← message.wanted "node" Id.decode?)
  | "store.insert_node" => return .insertNode (← NewNode.ofMessage? now message)
  | "store.update_node" => return .updateNode (← Node.ofMessage? message)
  | "root_nodes" => return .rootNodes (← message.wanted "version" Id.decode?)
  | "get_link" => return .getLink (← message.wanted "link" Id.decode?)
  | "store.insert_link" => return .insertLink (← NewLink.ofMessage? now message)
  | "store.update_link" => return .updateLink (← Link.ofMessage? message)
  | "parent_links" => return .parentLinks (← message.wanted "node" Id.decode?)
  | "child_links" => return .childLinks (← message.wanted "node" Id.decode?)
  | "store.logs_for_node" =>
    return .logsForNode (← message.wanted "node" Id.decode?)
      (← message.orElse "limit" Source.whole? 100)
  | "store.logs_for_workflow" =>
    return .logsForWorkflow (← message.wanted "workflow" Id.decode?)
      (← message.orElse "limit" Source.whole? 100)
  | _ => none

/-- What a call yields, as JSON.  Of entries only the number is shown if they are to be
`counted`. -/
def encode (counted : Bool) : (request : WorkflowCall) → request.Value → Json
  | getWorkflow _ => Json.ofOption Workflow.toJson
  | getOwner _ => Json.ofOption Workflow.toJson
  | listWorkflows => Json.ofList Workflow.toJson
  | insertWorkflow _ => Workflow.toJson
  | updateWorkflow _ => fun _ => .null
  | deleteWorkflow _ => Json.ofNat
  | getVersion _ => Json.ofOption Version.toJson
  | listVersions _ => Json.ofList Version.toJson
  | findVersion _ _ => Json.ofOption Version.toJson
  | latestVersion _ => Json.ofOption Version.toJson
  | activeVersions => Json.ofList Version.toJson
  | insertVersion _ => Version.toJson
  | updateVersion _ => fun _ => .null
  | deleteVersion _ => Json.ofNat
  | getNode _ => Json.ofOption Node.toJson
  | insertNode _ => Node.toJson
  | updateNode _ => fun _ => .null
  | deleteNode _ => Json.ofNat
  | rootNodes _ => Json.ofList (fun node => node.id.toJson)
  | getLink _ => Json.ofOption Link.toJson
  | insertLink _ => Link.toJson
  | updateLink _ => fun _ => .null
  | deleteLink _ => Json.ofNat
  | parentLinks _ => Json.ofList LinkedNode.idsJson
  | childLinks _ => Json.ofList LinkedNode.idsJson
  | insertLog _ => fun _ => .null
  | logsForNode _ _ => LogEntry.listJson counted
  | logsForWorkflow _ _ => LogEntry.listJson counted

end WorkflowCall

end NodeSteward
