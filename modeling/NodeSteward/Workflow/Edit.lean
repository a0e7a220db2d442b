import NodeSteward.Workflow.Editing
import NodeSteward.Workflow.Logging
import NodeSteward.Workflow.Versioning

/-!
# Edits of workflows

An edit is one of the operations that change what is stored about workflows, with all that is
handed to it.  A history of edits, each made at its instant, leads from one state of the store to
another.
-/

namespace NodeSteward

/-- An operation that changes what is stored about workflows. -/
inductive WorkflowEdit where
  | createWorkflow (workflow : NewWorkflow)
  | updateWorkflow (workflow : Workflow)
  | deleteWorkflow (id : WorkflowId)
  | cloneOrCreateVersion (workflowId : WorkflowId) (number : Int32) (name : String)
  | updateVersion (version : Version)
  | deleteVersion (id : VersionId)
  | addNode (node : NewNode)
  | updateNode (node : Node)
  | deleteNode (id : NodeId)
  | addLink (link : NewLink)
  | updateLink (link : Link)
  | deleteLink (id : LinkId)
  | appendLog (entry : LogEntry)
  deriving DecidableEq, Repr

namespace WorkflowEdit

/-- What an edit returns: what it wrote, or how many records it deleted. -/
abbrev Value : WorkflowEdit → Type
  | createWorkflow _ => Workflow
  | updateWorkflow _ => Workflow
  | deleteWorkflow _ => Nat
  | cloneOrCreateVersion _ _ _ => Version
  | updateVersion _ => Version
  | deleteVersion _ => Nat
  | addNode _ => Node
  | updateNode _ => Node
  | deleteNode _ => Nat
  | addLink _ => Link
  | updateLink _ => Link
  | deleteLink _ => Nat
  | appendLog _ => LogEntry

/-- The calls that an edit makes when it is made at the given instant. -/
def program (now : Timestamp) : (edit : WorkflowEdit) → WorkflowProgram edit.Value
  | createWorkflow workflow => Workflow.create now workflow
  | updateWorkflow workflow => Workflow.update now workflow
  | deleteWorkflow id => Workflow.delete id
  | cloneOrCreateVersion workflowId number name => Version.cloneOrCreate now workflowId number name
  | updateVersion version => Version.update now version
  | deleteVersion id => Version.delete id
  | addNode node => Node.add now node
  | updateNode node => Node.update now node
  | deleteNode id => Node.delete id
  | addLink link => Link.add now link
  | updateLink link => Link.update now link
  | deleteLink id => Link.delete id
  | appendLog entry => LogEntry.append now entry

/-- The store after an edit that nothing else disturbs. -/
def apply (store : WorkflowStore) (now : Timestamp) (edit : WorkflowEdit) : WorkflowStore :=
  ((edit.program now).run.run WorkflowStore.handler store).2

/-- The store after a history of edits. -/
def applyAll (store : WorkflowStore) (edits : List (Timestamp × WorkflowEdit)) : WorkflowStore :=
  edits.foldl (fun store edit => edit.2.apply store edit.1) store

end WorkflowEdit

end NodeSteward
