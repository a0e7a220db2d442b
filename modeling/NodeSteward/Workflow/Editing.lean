import NodeSteward.Workflow.Requests

/-!
# Editing workflows, nodes and links

Every write is stamped with the instant at which it is made; what is new gets that instant as
its creation too, and nodes and links without a name are named after it.  The parameters of a
node have to be readable before the node is written, and both ends of a link have to be nodes of
the version that the link names.
-/

namespace NodeSteward

open WorkflowProgram (ask)

namespace Workflow

/-- Creates a workflow. -/
def create (now : Timestamp) (workflow : NewWorkflow) : WorkflowProgram Workflow :=
  ask (.insertWorkflow { workflow with createdOn := now, updatedOn := now })

/-- Writes the name, the type and the status of a workflow, and returns what was handed in with
the new stamp. -/
def update (now : Timestamp) (workflow : Workflow) : WorkflowProgram Workflow := do
  let stamped := { workflow with updatedOn := now }
  ask (.updateWorkflow stamped)
  return stamped

/-- Deletes a workflow with all its versions, and returns how many workflows that were. -/
def delete (id : WorkflowId) : WorkflowProgram Nat :=
  ask (.deleteWorkflow id)

end Workflow

namespace NewNode

/-- Fails unless the parameters can be read; `id` is the node that the failure names. -/
def checkParameters (node : NewNode) (id : Option NodeId) : Except WorkflowError Parameters :=
  match Parameters.ofText? node.parameters with
  | some parameters => .ok parameters
  | none => .error (.invalidParameters id)

end NewNode

namespace Node

/-- The parameters of a stored node. -/
def readParameters (node : Node) : Except WorkflowError Parameters :=
  node.checkParameters (some node.id)

/-- Adds a node to a version. -/
def add (now : Timestamp) (node : NewNode) : WorkflowProgram Node := do
  let _ ← ofExcept (node.checkParameters none)
  ask (.insertNode
    { node with name := now.nameOr node.name, createdOn := now, updatedOn := now })

/-- Writes the mutable fields of a node, and returns what was handed in with the new stamp. -/
def update (now : Timestamp) (node : Node) : WorkflowProgram Node := do
  let _ ← ofExcept node.readParameters
  let stamped := { node with updatedOn := now }
  ask (.updateNode stamped)
  return stamped

/-- Deletes a node with every link that touches it. -/
def delete (id : NodeId) : WorkflowProgram Nat :=
  ask (.deleteNode id)

end Node

namespace NewLink

/-- Fails unless the node is one of the version. -/
def checkEnd (versionId : VersionId) (id : NodeId) : WorkflowProgram Unit := do
  let node ← ask (.getNode id)
  let nodeVersion := node.map (fun node => node.versionId)
  if nodeVersion = some versionId then return ()
  else throw (.linkVersionMismatch versionId id nodeVersion)

/-- Fails unless both ends are nodes of the link's version; the parent is looked at first. -/
def checkEnds (link : NewLink) : WorkflowProgram Unit := do
  checkEnd link.versionId link.parent
  checkEnd link.versionId link.child

end NewLink

namespace Link

/-- Links an output slot of one node to an input slot of another. -/
def add (now : Timestamp) (link : NewLink) : WorkflowProgram Link := do
  link.checkEnds
  ask (.insertLink
    { link with name := now.nameOr link.name, createdOn := now, updatedOn := now })

/-- Writes the mutable fields of a link, and returns what was handed in with the new stamp. -/
def update (now : Timestamp) (link : Link) : WorkflowProgram Link := do
  link.checkEnds
  let stamped := { link with updatedOn := now }
  ask (.updateLink stamped)
  return stamped

/-- Deletes a link. -/
def delete (id : LinkId) : WorkflowProgram Nat :=
  ask (.deleteLink id)

end Link

end NodeSteward
