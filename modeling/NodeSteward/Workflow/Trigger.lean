import NodeSteward.Workflow.View

/-!
# Triggers

A workflow may run through one version only: of its active versions the one with the highest
number.  The active root nodes of that version are its triggers.
-/

namespace NodeSteward

open WorkflowProgram (ask)

namespace Version

/-- Takes a version into a list that holds one version for each workflow, in the order of the
workflows' identifiers.  A version replaces the held one only if its number is higher. -/
def insertLatest (version : Version) : List Version → List Version
  | [] => [version]
  | held :: rest =>
    if version.workflowId = held.workflowId then
      if version.number ≤ held.number then held :: rest else version :: rest
    else if version.workflowId.raw < held.workflowId.raw then version :: held :: rest
    else held :: insertLatest version rest

/-- The version with the highest number of each workflow, the first of equal ones, in the order
of the workflows' identifiers. -/
def latestOfEach (versions : List Version) : List Version :=
  versions.foldl (fun latest version => version.insertLatest latest) []

end Version

namespace NodeView

/-- The views of some nodes, without those that have been deleted meanwhile. -/
def loadAll : List NodeId → WorkflowProgram (List NodeView)
  | [] => return []
  | id :: ids => do
    let view ← load? id
    let views ← loadAll ids
    return view.toList ++ views

/-- The triggers of one version. -/
def triggersOf (type : NodeType) (version : Version) : WorkflowProgram (List NodeView) := do
  let roots ← ask (.rootNodes version.id)
  let eligible := roots.filter (fun node => node.status = .active && node.type = type)
  loadAll ((eligible.mergeSort (fun first second => first.id.raw ≤ second.id.raw)).map Node.id)

/-- The triggers of several versions, one version after the other. -/
def triggersOfAll (type : NodeType) : List Version → WorkflowProgram (List NodeView)
  | [] => return []
  | version :: versions => do
    let views ← triggersOf type version
    let others ← triggersOfAll type versions
    return views ++ others

/-- The triggers of a type in all workflows, by workflow and then by node. -/
def activeTriggers (type : NodeType) : WorkflowProgram (List NodeView) := do
  let versions ← ask .activeVersions
  triggersOfAll type (Version.latestOfEach versions)

end NodeView

end NodeSteward
