import NodeSteward.Workflow.Requests

/-!
# Writing and querying the log

An entry is stamped when it is written.  Whoever writes entries about a run treats a failed write
as something to report, never as a reason to end the run.
-/

namespace NodeSteward

open WorkflowProgram (ask)

namespace LogEntry

/-- Appends an entry and returns it with its stamp. -/
def append (now : Timestamp) (entry : LogEntry) : WorkflowProgram LogEntry := do
  let stamped := { entry with createdOn := now }
  ask (.insertLog stamped)
  return stamped

/-- The newest entries of a node, at most `limit` and never more than the fixed bound. -/
def recentOfNode (id : NodeId) (limit : Int) : WorkflowProgram (List LogEntry) :=
  ask (.logsForNode id (clampLimit limit))

/-- The newest entries of all nodes of a workflow, at most `limit` and never more than the fixed
bound. -/
def recentOfWorkflow (id : WorkflowId) (limit : Int) : WorkflowProgram (List LogEntry) :=
  ask (.logsForWorkflow id (clampLimit limit))

end LogEntry

end NodeSteward
