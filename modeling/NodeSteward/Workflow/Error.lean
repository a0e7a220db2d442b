import NodeSteward.Id
import NodeSteward.StoreError

/-!
# Failures of workflow operations

That a record does not exist is an error only where an operation needs it.  A failed store call
passes its failure on.
-/

namespace NodeSteward

/-- Why an operation on workflows failed. -/
inductive WorkflowError where
  | store (error : StoreError)
  /-- The operation is known but cannot be done yet. -/
  | notImplemented (operation : String)
  /-- The graph was asked for from a node that does not exist. -/
  | recursionInput (node : NodeId)
  /-- The graph returns to a node that is still being expanded. -/
  | cycleDetected (node : NodeId)
  /-- An end of a link is not a node of the link's version. -/
  | linkVersionMismatch (linkVersion : VersionId) (node : NodeId)
      (nodeVersion : Option VersionId)
  /-- The parameters of a node are not of the expected form. -/
  | invalidParameters (node : Option NodeId)
  deriving DecidableEq, Repr

namespace WorkflowError

def message : WorkflowError → String
  | .store error => error.message
  | .notImplemented operation => operation ++ " is not implemented"
  | .recursionInput node => "node " ++ node.text ++ " does not exist"
  | .cycleDetected node => "cycle detected at node " ++ node.text
  | .linkVersionMismatch linkVersion node (some nodeVersion) =>
    "link in version " ++ linkVersion.text ++ " references node " ++ node.text ++
      " from version " ++ nodeVersion.text
  | .linkVersionMismatch linkVersion node none =>
    "link in version " ++ linkVersion.text ++ " references missing node " ++ node.text
  | .invalidParameters (some node) => "invalid parameters on node " ++ node.text
  | .invalidParameters none => "invalid parameters on new node"

end WorkflowError

end NodeSteward
