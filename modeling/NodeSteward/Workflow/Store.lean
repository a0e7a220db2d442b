import NodeSteward.Workflow.Link
import NodeSteward.Workflow.Log
import NodeSteward.StoreError

/-!
# The store of workflows

The store holds the tables of workflows, versions, nodes and links and the log, and hands out
identifiers from one counter for all four tables.  It keeps the rules of the relational schema:
a version number is taken once in its workflow, a record needs the record that owns it, and
deleting a record deletes what it owns.  Times, default names and the checks on links are the
business of the editing operations; the store writes what it is given.

Every operation is one atomic step.  A write that fails leaves the store as it was.
-/

namespace NodeSteward

/-- The tables of the workflow store. -/
structure WorkflowStore where
  /-- How many identifiers have been handed out. -/
  issued : Nat
  workflows : Table Workflow
  versions : Table Version
  nodes : Table Node
  links : Table Link
  /-- The log, the oldest entry first. -/
  logs : List LogEntry
  /-- Refuse log entries, to see how callers cope with it. -/
  refusesLogs : Bool

namespace WorkflowStore

/-- The store without records. -/
def empty : WorkflowStore where
  issued := 0
  workflows := .empty
  versions := .empty
  nodes := .empty
  links := .empty
  logs := []
  refusesLogs := false

/-- The identifier that is handed out next. -/
def nextId (store : WorkflowStore) (kind : IdKind) : Id kind :=
  ⟨(store.issued : Int) + 1⟩

def workflow? (store : WorkflowStore) (id : WorkflowId) : Option Workflow :=
  store.workflows.get? id

/-- The workflow that owns a version. -/
def ownerOf? (store : WorkflowStore) (id : VersionId) : Option Workflow :=
  (store.versions.get? id).bind (fun version => store.workflows.get? version.workflowId)

def insertWorkflow (store : WorkflowStore) (workflow : NewWorkflow) : Workflow × WorkflowStore :=
  let stored := workflow.withId (store.nextId .workflow)
  (stored,
    { store with issued := store.issued + 1, workflows := store.workflows.insert stored })

/-- Overwrites what may change in a workflow. -/
def updateWorkflow (store : WorkflowStore) (workflow : Workflow) :
    Except StoreError Unit × WorkflowStore :=
  if store.workflows.contains workflow.id then
    (.ok (),
      { store with
        workflows := store.workflows.modify workflow.id
          (fun held =>
            { held with
              name := workflow.name
              workflowType := workflow.workflowType
              status := workflow.status
              updatedOn := workflow.updatedOn })
          (fun _ => rfl) })
  else (.error (.missingRow "update_workflow" workflow.id.text), store)

/-- Deletes a node with every link that touches it and its log entries. -/
def deleteNode (store : WorkflowStore) (id : NodeId) : Nat × WorkflowStore :=
  if store.nodes.contains id then
    (1,
      { store with
        nodes := store.nodes.erase id
        links := store.links.filter (fun link => link.parent ≠ id && link.child ≠ id)
        logs := store.logs.filter (fun entry => entry.node ≠ id) })
  else (0, store)

/-- The nodes of a version. -/
def nodesOf (store : WorkflowStore) (id : VersionId) : List Node :=
  store.nodes.rows.filter (fun node => node.versionId = id)

/-- Deletes a version with its nodes, and the links that carry its identifier. -/
def deleteVersion (store : WorkflowStore) (id : VersionId) : Nat × WorkflowStore :=
  if store.versions.contains id then
    let withoutVersion := { store with versions := store.versions.erase id }
    let withoutNodes :=
      (store.nodesOf id).foldl (fun current node => (current.deleteNode node.id).2) withoutVersion
    (1,
      { withoutNodes with
        links := withoutNodes.links.filter (fun link => link.versionId ≠ id) })
  else (0, store)

/-- The versions of a workflow in the order of their identifiers. -/
def versionsOf (store : WorkflowStore) (id : WorkflowId) : List Version :=
  store.versions.rows.filter (fun version => version.workflowId = id)

/-- Deletes a workflow with its versions. -/
def deleteWorkflow (store : WorkflowStore) (id : WorkflowId) : Nat × WorkflowStore :=
  if store.workflows.contains id then
    let withoutWorkflow := { store with workflows := store.workflows.erase id }
    (1,
      (store.versionsOf id).foldl (fun current version => (current.deleteVersion version.id).2)
        withoutWorkflow)
  else (0, store)

def version? (store : WorkflowStore) (id : VersionId) : Option Version :=
  store.versions.get? id

/-- The versions of a workflow, the lowest number first. -/
def listVersions (store : WorkflowStore) (id : WorkflowId) : List Version :=
  (store.versionsOf id).mergeSort (fun first second => first.number ≤ second.number)

/-- The version of a workflow with the given number. -/
def findVersion? (store : WorkflowStore) (id : WorkflowId) (number : Int32) : Option Version :=
  store.versions.rows.find? (fun version => version.workflowId = id && version.number = number)

/-- The version of a workflow with the highest number, whatever its status. -/
def latestVersion? (store : WorkflowStore) (id : WorkflowId) : Option Version :=
  (store.versionsOf id).foldl
    (fun latest version =>
      match latest with
      | none => some version
      | some held => if held.number ≤ version.number then some version else some held)
    none

/-- Every active version of any workflow. -/
def activeVersions (store : WorkflowStore) : List Version :=
  store.versions.rows.filter (fun version => version.status = .active)

/-- True when a version other than `except` has the number in the workflow. -/
def versionTaken (store : WorkflowStore) (id : WorkflowId) (number : Int32)
    (except : Option VersionId) : Bool :=
  store.versions.rows.any (fun version =>
    version.workflowId = id && version.number = number && some version.id ≠ except)

/-- The failure of a write that would take a number twice. -/
def numberTaken (operation : String) (id : WorkflowId) (number : Int32) : StoreError :=
  .constraintViolation operation
    ("workflow " ++ id.text ++ " already has version " ++ Decimal.intText number.toInt)

def insertVersion (store : WorkflowStore) (version : NewVersion) :
    Except StoreError Version × WorkflowStore :=
  if !store.workflows.contains version.workflowId then
    (.error (.missingRow "insert_workflow_version" version.workflowId.text), store)
  else if store.versionTaken version.workflowId version.number none then
    (.error (numberTaken "insert_workflow_version" version.workflowId version.number), store)
  else
    let stored := version.withId (store.nextId .version)
    (.ok stored,
      { store with issued := store.issued + 1, versions := store.versions.insert stored })

/-- Overwrites what may change in a version. -/
def updateVersion (store : WorkflowStore) (version : Version) :
    Except StoreError Unit × WorkflowStore :=
  if store.versionTaken version.workflowId version.number (some version.id) then
    (.error (numberTaken "update_workflow_version" version.workflowId version.number), store)
  else if store.versions.contains version.id then
    (.ok (),
      { store with
        versions := store.versions.modify version.id
          (fun held =>
            { held with
              number := version.number
              name := version.name
              status := version.status
              updatedOn := version.updatedOn })
          (fun _ => rfl) })
  else (.error (.missingRow "update_workflow_version" version.id.text), store)

def node? (store : WorkflowStore) (id : NodeId) : Option Node :=
  store.nodes.get? id

def insertNode (store : WorkflowStore) (node : NewNode) :
    Except StoreError Node × WorkflowStore :=
  if store.versions.contains node.versionId then
    let stored := node.withId (store.nextId .node)
    (.ok stored, { store with issued := store.issued + 1, nodes := store.nodes.insert stored })
  else (.error (.missingRow "insert_workflow_version_node" node.versionId.text), store)

/-- Overwrites what may change in a node. -/
def updateNode (store : WorkflowStore) (node : Node) : Except StoreError Unit × WorkflowStore :=
  if store.nodes.contains node.id then
    (.ok (),
      { store with
        nodes := store.nodes.modify node.id
          (fun held =>
            { held with
              name := node.name
              type := node.type
              status := node.status
              parameters := node.parameters
              visibility := node.visibility
              updatedOn := node.updatedOn })
          (fun _ => rfl) })
  else (.error (.missingRow "update_workflow_version_node" node.id.text), store)

/-- The nodes of a version into which no link leads. -/
def rootNodes (store : WorkflowStore) (id : VersionId) : List Node :=
  (store.nodesOf id).filter (fun node => !store.links.rows.any (fun link => link.child = node.id))

def link? (store : WorkflowStore) (id : LinkId) : Option Link :=
  store.links.get? id

def insertLink (store : WorkflowStore) (link : NewLink) :
    Except StoreError Link × WorkflowStore :=
  if store.nodes.contains link.parent && store.nodes.contains link.child then
    let stored := link.withId (store.nextId .link)
    (.ok stored, { store with issued := store.issued + 1, links := store.links.insert stored })
  else
    (.error (.storageFailure "insert_workflow_version_node_link"
      ("link endpoints " ++ link.parent.text ++ " -> " ++ link.child.text ++ " must both exist")),
      store)

/-- Overwrites what may change in a link, its ends included. -/
def updateLink (store : WorkflowStore) (link : Link) : Except StoreError Unit × WorkflowStore :=
  if store.links.contains link.id then
    (.ok (),
      { store with
        links := store.links.modify link.id
          (fun held =>
            { held with
              name := link.name
              parent := link.parent
              output := link.output
              child := link.child
              input := link.input
              visibility := link.visibility
              updatedOn := link.updatedOn })
          (fun _ => rfl) })
  else (.error (.missingRow "update_workflow_version_node_link" link.id.text), store)

def deleteLink (store : WorkflowStore) (id : LinkId) : Nat × WorkflowStore :=
  if store.links.contains id then (1, { store with links := store.links.erase id })
  else (0, store)

/-- The links that `other` maps to a stored node, each with that node. -/
def joined (store : WorkflowStore) (other : Link → Option NodeId) : List LinkedNode :=
  store.links.rows.filterMap (fun link =>
    ((other link).bind store.node?).map (fun node => ⟨link, node⟩))

/-- The links that lead to a node with the nodes they come from, by input slot. -/
def parentLinks (store : WorkflowStore) (id : NodeId) : List LinkedNode :=
  (store.joined (fun link => if link.child = id then some link.parent else none)).mergeSort
    (fun first second => first.link.inputOrder second.link)

/-- The links that leave a node with the nodes they lead to, by output slot. -/
def childLinks (store : WorkflowStore) (id : NodeId) : List LinkedNode :=
  (store.joined (fun link => if link.parent = id then some link.child else none)).mergeSort
    (fun first second => first.link.outputOrder second.link)

def insertLog (store : WorkflowStore) (entry : LogEntry) : Except StoreError Unit × WorkflowStore :=
  if store.refusesLogs then
    (.error (.storageFailure "insert_workflow_version_node_log" "log inserts disabled"), store)
  else (.ok (), { store with logs := store.logs ++ [entry] })

/-- The newest of some entries; those of one instant keep the order in which they were written. -/
def newest (entries : List LogEntry) (limit : Int) : List LogEntry :=
  (entries.mergeSort LogEntry.newestFirst).take limit.toNat

/-- The newest entries of a node. -/
def logsForNode (store : WorkflowStore) (id : NodeId) (limit : Int) : List LogEntry :=
  newest (store.logs.filter (fun entry => entry.node = id)) limit

/-- The newest entries of all nodes in the versions of a workflow. -/
def logsForWorkflow (store : WorkflowStore) (id : WorkflowId) (limit : Int) : List LogEntry :=
  newest
    (store.logs.filter (fun entry =>
      ((store.node? entry.node).bind (fun node => store.version? node.versionId)).any
        (fun version => version.workflowId = id)))
    limit

end WorkflowStore

end NodeSteward
