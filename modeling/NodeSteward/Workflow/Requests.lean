import NodeSteward.Workflow.Store
import NodeSteward.Workflow.Error
import NodeSteward.Calls

/-!
# Calls to the workflow store

The operations on workflows reach the store only by the calls listed here.  A call is answered
with a value or with the failure of the store; `WorkflowStore.handler` is how the store of this
library answers.
-/

namespace NodeSteward

/-- A call to the workflow store. -/
inductive WorkflowCall where
  | getWorkflow (id : WorkflowId)
  | getOwner (id : VersionId)
  | listWorkflows
  | insertWorkflow (workflow : NewWorkflow)
  | updateWorkflow (workflow : Workflow)
  | deleteWorkflow (id : WorkflowId)
  | getVersion (id : VersionId)
  | listVersions (id : WorkflowId)
  | findVersion (id : WorkflowId) (number : Int32)
  | latestVersion (id : WorkflowId)
  | activeVersions
  | insertVersion (version : NewVersion)
  | updateVersion (version : Version)
  | deleteVersion (id : VersionId)
  | getNode (id : NodeId)
  | insertNode (node : NewNode)
  | updateNode (node : Node)
  | deleteNode (id : NodeId)
  | rootNodes (id : VersionId)
  | getLink (id : LinkId)
  | insertLink (link : NewLink)
  | updateLink (link : Link)
  | deleteLink (id : LinkId)
  | parentLinks (id : NodeId)
  | childLinks (id : NodeId)
  | insertLog (entry : LogEntry)
  | logsForNode (id : NodeId) (limit : Int)
  | logsForWorkflow (id : WorkflowId) (limit : Int)

namespace WorkflowCall

/-- What a call yields when it does not fail. -/
abbrev Value : WorkflowCall → Type
  | getWorkflow _ => Option Workflow
  | getOwner _ => Option Workflow
  | listWorkflows => List Workflow
  | insertWorkflow _ => Workflow
  | updateWorkflow _ => Unit
  | deleteWorkflow _ => Nat
  | getVersion _ => Option Version
  | listVersions _ => List Version
  | findVersion _ _ => Option Version
  | latestVersion _ => Option Version
  | activeVersions => List Version
  | insertVersion _ => Version
  | updateVersion _ => Unit
  | deleteVersion _ => Nat
  | getNode _ => Option Node
  | insertNode _ => Node
  | updateNode _ => Unit
  | deleteNode _ => Nat
  | rootNodes _ => List Node
  | getLink _ => Option Link
  | insertLink _ => Link
  | updateLink _ => Unit
  | deleteLink _ => Nat
  | parentLinks _ => List LinkedNode
  | childLinks _ => List LinkedNode
  | insertLog _ => Unit
  | logsForNode _ _ => List LogEntry
  | logsForWorkflow _ _ => List LogEntry

/-- The name under which failures are arranged for a call. -/
def operation : WorkflowCall → String
  | getWorkflow _ => "get_workflow"
  | getOwner _ => "get_workflow_by_version_id"
  | listWorkflows => "list_workflows"
  | insertWorkflow _ => "insert_workflow"
  | updateWorkflow _ => "update_workflow"
  | deleteWorkflow _ => "delete_workflow"
  | getVersion _ => "get_version"
  | listVersions _ => "list_versions"
  | findVersion _ _ => "find_version"
  | latestVersion _ => "latest_version"
  | activeVersions => "active_versions"
  | insertVersion _ => "insert_version"
  | updateVersion _ => "update_version"
  | deleteVersion _ => "delete_version"
  | getNode _ => "get_node"
  | insertNode _ => "insert_node"
  | updateNode _ => "update_node"
  | deleteNode _ => "delete_node"
  | rootNodes _ => "root_nodes"
  | getLink _ => "get_link"
  | insertLink _ => "insert_link"
  | updateLink _ => "update_link"
  | deleteLink _ => "delete_link"
  | parentLinks _ => "parent_links"
  | childLinks _ => "child_links"
  | insertLog _ => "insert_log"
  | logsForNode _ _ => "logs_for_node"
  | logsForWorkflow _ _ => "logs_for_workflow"

end WorkflowCall

/-- The calls to the workflow store with their answers. -/
abbrev workflowCalls : Interface where
  Call := WorkflowCall
  Answer request := Except StoreError request.Value

/-- An operation on workflows: calls to the store that end in a value or an error. -/
abbrev WorkflowProgram (α : Type) := ExceptT WorkflowError (Program workflowCalls) α

namespace WorkflowProgram

/-- Makes a call; a failure of the store ends the operation. -/
def ask (request : WorkflowCall) : WorkflowProgram request.Value :=
  ExceptT.mk (.call (I := workflowCalls) request fun answer =>
    .done (answer.mapError WorkflowError.store))

end WorkflowProgram

namespace WorkflowStore

/-- How the store answers calls. -/
def handler : Handler workflowCalls WorkflowStore
  | .getWorkflow id, store => (.ok (store.workflow? id), store)
  | .getOwner id, store => (.ok (store.ownerOf? id), store)
  | .listWorkflows, store => (.ok store.workflows.rows, store)
  | .insertWorkflow workflow, store =>
    let (stored, store) := store.insertWorkflow workflow
    (.ok stored, store)
  | .updateWorkflow workflow, store => store.updateWorkflow workflow
  | .deleteWorkflow id, store =>
    let (count, store) := store.deleteWorkflow id
    (.ok count, store)
  | .getVersion id, store => (.ok (store.version? id), store)
  | .listVersions id, store => (.ok (store.listVersions id), store)
  | .findVersion id number, store => (.ok (store.findVersion? id number), store)
  | .latestVersion id, store => (.ok (store.latestVersion? id), store)
  | .activeVersions, store => (.ok store.activeVersions, store)
  | .insertVersion version, store => store.insertVersion version
  | .updateVersion version, store => store.updateVersion version
  | .deleteVersion id, store =>
    let (count, store) := store.deleteVersion id
    (.ok count, store)
  | .getNode id, store => (.ok (store.node? id), store)
  | .insertNode node, store => store.insertNode node
  | .updateNode node, store => store.updateNode node
  | .deleteNode id, store =>
    let (count, store) := store.deleteNode id
    (.ok count, store)
  | .rootNodes id, store => (.ok (store.rootNodes id), store)
  | .getLink id, store => (.ok (store.link? id), store)
  | .insertLink link, store => store.insertLink link
  | .updateLink link, store => store.updateLink link
  | .deleteLink id, store =>
    let (count, store) := store.deleteLink id
    (.ok count, store)
  | .parentLinks id, store => (.ok (store.parentLinks id), store)
  | .childLinks id, store => (.ok (store.childLinks id), store)
  | .insertLog entry, store => store.insertLog entry
  | .logsForNode id limit, store => (.ok (store.logsForNode id limit), store)
  | .logsForWorkflow id limit, store => (.ok (store.logsForWorkflow id limit), store)

end WorkflowStore

end NodeSteward
