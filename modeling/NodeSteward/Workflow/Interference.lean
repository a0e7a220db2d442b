import NodeSteward.Workflow.Requests

/-!
# A workflow store that others use at the same time

An operation makes several calls, and what it saw at one call may be gone at the next.  Here one
such change can be arranged: a node is deleted just before the next call that reads a node.
-/

namespace NodeSteward

/-- A workflow store with a deletion that is about to happen. -/
structure ContestedStore where
  store : WorkflowStore
  /-- The node that is deleted before the next call that reads a node. -/
  deletesNext : Option NodeId

namespace ContestedStore

/-- Answers calls like the store, after the arranged deletion if the call reads a node. -/
def handler : Handler workflowCalls ContestedStore := fun request contested =>
  match request, contested.deletesNext with
  | .getNode id, some doomed =>
    let store := (contested.store.deleteNode doomed).2
    (.ok (store.node? id), ⟨store, none⟩)
  | request, deletesNext =>
    let (answer, store) := WorkflowStore.handler request contested.store
    (answer, ⟨store, deletesNext⟩)

/-- Answers calls like `handler`, except for those that are arranged to fail. -/
def faultyHandler : Handler workflowCalls (Faulty ContestedStore) :=
  Faulty.handler (I := workflowCalls) WorkflowCall.operation (fun _ error => .error error) handler

end ContestedStore

end NodeSteward
