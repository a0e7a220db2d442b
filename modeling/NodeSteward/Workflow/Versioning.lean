import NodeSteward.Workflow.Requests

/-!
# Versions of a workflow

Versions are numbered in their workflow, and number 0 is the draft on which an editor works.  A
version is made either from nothing or as the copy of an older one; copying is recognised but
not yet possible.
-/

namespace NodeSteward

open WorkflowProgram (ask)

namespace Version

/-- The version that a new one would be copied from: the highest of the workflow for a draft,
and the version of the same number otherwise. -/
def copySource (workflowId : WorkflowId) (number : Int32) : WorkflowProgram (Option Version) :=
  if number = 0 then ask (.latestVersion workflowId) else ask (.findVersion workflowId number)

/-- Makes a version that is inactive and has no nodes, named `name` or after the instant.  Where
there is a version to copy, the operation ends with an error and writes nothing. -/
def cloneOrCreate (now : Timestamp) (workflowId : WorkflowId) (number : Int32) (name : String) :
    WorkflowProgram Version := do
  match ← copySource workflowId number with
  | some _ => throw (.notImplemented "clone_workflow_version")
  | none =>
    ask (.insertVersion
      { workflowId, number, name := now.nameOr name, status := .inactive, createdOn := now,
        updatedOn := now })

/-- Writes the number, the name and the status of a version, and returns what was handed in with
the new stamp. -/
def update (now : Timestamp) (version : Version) : WorkflowProgram Version := do
  let stamped := { version with updatedOn := now }
  ask (.updateVersion stamped)
  return stamped

/-- Deletes a version with all its nodes and links. -/
def delete (id : VersionId) : WorkflowProgram Nat :=
  ask (.deleteVersion id)

end Version

end NodeSteward
