import NodeSteward.Proofs.Workflow.Cascade
import NodeSteward.Proofs.Workflow.Outcome
import NodeSteward.Workflow.Editing
import NodeSteward.Workflow.Versioning

/-!
# Exactly what a delete removes

A delete names a workflow, a version or a node.  What goes with it is said here by ownership alone,
for each record of the five tables on its own: a version goes with its workflow, a node with its
version, a link with either of its ends or with the version whose identifier it carries, and a log
entry with the node that ran.  The loops of the store remove these records and no others, whatever
the store holds, and a delete of something that is not stored changes nothing.
-/

namespace NodeSteward

open WorkflowProgram (outcome)

/-- What is to be deleted. -/
inductive Deletion where
  | workflow (id : WorkflowId)
  | version (id : VersionId)
  | node (id : NodeId)
  deriving DecidableEq, Repr

namespace Deletion

/-- The operation that makes the deletion and yields how many records of its level it deleted. -/
def program : Deletion → WorkflowProgram Nat
  | workflow id => Workflow.delete id
  | version id => Version.delete id
  | node id => Node.delete id

def isStored (store : WorkflowStore) : Deletion → Bool
  | workflow id => store.workflows.contains id
  | version id => store.versions.contains id
  | node id => store.nodes.contains id

def takesWorkflow (deletion : Deletion) (held : Workflow) : Bool :=
  deletion = workflow held.id

def takesVersion (deletion : Deletion) (held : Version) : Bool :=
  deletion = version held.id || deletion = workflow held.workflowId

/-- The identifier is that of a stored version that goes. -/
def takesVersionId (store : WorkflowStore) (deletion : Deletion) (id : VersionId) : Bool :=
  store.versions.rows.any fun held => deletion.takesVersion held && id = held.id

def takesNode (store : WorkflowStore) (deletion : Deletion) (held : Node) : Bool :=
  deletion = node held.id || deletion.takesVersionId store held.versionId

/-- The identifier is that of a stored node that goes. -/
def takesNodeId (store : WorkflowStore) (deletion : Deletion) (id : NodeId) : Bool :=
  store.nodes.rows.any fun held => deletion.takesNode store held && id = held.id

def takesLink (store : WorkflowStore) (deletion : Deletion) (held : Link) : Bool :=
  deletion.takesNodeId store held.parent || deletion.takesNodeId store held.child ||
    deletion.takesVersionId store held.versionId

def takesEntry (store : WorkflowStore) (deletion : Deletion) (entry : LogEntry) : Bool :=
  deletion.takesNodeId store entry.node

/-- The store without what goes; all else stays as it is and in its place. -/
def remainder (deletion : Deletion) (store : WorkflowStore) : WorkflowStore :=
  { store with
    workflows := store.workflows.filter fun held => !deletion.takesWorkflow held
    versions := store.versions.filter fun held => !deletion.takesVersion held
    nodes := store.nodes.filter fun held => !deletion.takesNode store held
    links := store.links.filter fun held => !deletion.takesLink store held
    logs := store.logs.filter fun entry => !deletion.takesEntry store entry }

variable {store : WorkflowStore} {deletion : Deletion}

theorem takesVersionId_eq (store : WorkflowStore) (deletion : Deletion) (id : VersionId) :
    deletion.takesVersionId store id = (store.version? id).any deletion.takesVersion := by
  rw [takesVersionId, ← List.any_filter]
  exact store.versions.any_filter_rows deletion.takesVersion id

theorem takesNodeId_eq (store : WorkflowStore) (deletion : Deletion) (id : NodeId) :
    deletion.takesNodeId store id = (store.node? id).any (deletion.takesNode store) := by
  rw [takesNodeId, ← List.any_filter]
  exact store.nodes.any_filter_rows (deletion.takesNode store) id

theorem takesVersionId_of_mem {held : Version} (member : held ∈ store.versions.rows) :
    deletion.takesVersionId store held.id = deletion.takesVersion held := by
  have found : store.version? held.id = some held := Table.get?_eq_some_iff.mpr ⟨member, rfl⟩
  rw [takesVersionId_eq, found, Option.any_some]

theorem takesNodeId_of_mem {held : Node} (member : held ∈ store.nodes.rows) :
    deletion.takesNodeId store held.id = deletion.takesNode store held := by
  have found : store.node? held.id = some held := Table.get?_eq_some_iff.mpr ⟨member, rfl⟩
  rw [takesNodeId_eq, found, Option.any_some]

/-- The versions that go take along exactly what belongs to them, unless a single node was named. -/
theorem withoutVersions_takesVersionId (named : ∀ id, deletion ≠ node id) :
    { store.withoutVersions (deletion.takesVersionId store) with
      workflows := store.workflows.filter fun held => !deletion.takesWorkflow held } =
      deletion.remainder store := by
  have within : store.nodeWithin (deletion.takesVersionId store) = deletion.takesNodeId store := by
    funext id
    rw [takesNodeId_eq, WorkflowStore.nodeWithin]
    congr 1
    funext held
    rw [takesNode, decide_eq_false (named held.id), Bool.false_or]
  have versions : store.versions.filter (fun held => !deletion.takesVersionId store held.id) =
      store.versions.filter (fun held => !deletion.takesVersion held) :=
    Table.filter_congr fun held member => by rw [takesVersionId_of_mem member]
  have nodes : store.nodes.filter (fun held => !deletion.takesNodeId store held.id) =
      store.nodes.filter (fun held => !deletion.takesNode store held) :=
    Table.filter_congr fun held member => by rw [takesNodeId_of_mem member]
  unfold WorkflowStore.withoutVersions WorkflowStore.withoutNodes remainder
  rw [within]
  dsimp only
  rw [versions, nodes, Table.filter_filter]
  congr 1
  refine Table.filter_congr fun held _ => ?_
  rw [takesLink, Bool.not_or, Bool.not_or]

/-- A single node takes its links and its log entries along. -/
theorem withoutNodes_named {id : NodeId} (stored : store.nodes.contains id = true) :
    store.withoutNodes (fun other => other = id) = (node id).remainder store := by
  have versionless : ∀ other, (node id).takesVersionId store other = false := fun other =>
    List.any_eq_false.mpr fun held _ => by simp [takesVersion]
  have own : ∀ held, (node id).takesNode store held = decide (held.id = id) := by
    intro held
    rw [takesNode, versionless, Bool.or_false]
    simp [eq_comm]
  have gone : ∀ other, (node id).takesNodeId store other = decide (other = id) := by
    intro other
    rw [takesNodeId_eq]
    cases found : store.node? other with
    | none =>
      refine (decide_eq_false ?_).symm
      rintro rfl
      rw [Table.contains, show store.nodes.get? other = none from found] at stored
      cases stored
    | some held =>
      have named : held.id = other := (Table.mem_of_get? found).2
      rw [Option.any_some, own, named]
  have workflows : store.workflows.filter (fun held => !(node id).takesWorkflow held) =
      store.workflows :=
    Table.filter_eq_self fun held _ => by simp [takesWorkflow]
  have versions : store.versions.filter (fun held => !(node id).takesVersion held) =
      store.versions :=
    Table.filter_eq_self fun held _ => by simp [takesVersion]
  unfold WorkflowStore.withoutNodes remainder takesLink takesEntry
  simp only [own, gone, versionless, workflows, versions, Bool.or_false, Bool.not_or]

/-- What a workflow takes along are the stored versions that it owns. -/
theorem takesVersionId_workflow (store : WorkflowStore) (id : WorkflowId) :
    (workflow id).takesVersionId store = store.ownsVersion id := by
  funext other
  rw [takesVersionId_eq, WorkflowStore.ownsVersion]
  congr 1
  funext held
  simp [takesVersion, eq_comm]

/-- A stored version takes no other version along. -/
theorem takesVersionId_version {id : VersionId} (stored : store.versions.contains id = true) :
    (version id).takesVersionId store = fun other => decide (other = id) := by
  funext other
  rw [takesVersionId_eq]
  cases found : store.version? other with
  | none =>
    refine (decide_eq_false ?_).symm
    rintro rfl
    rw [Table.contains, show store.versions.get? other = none from found] at stored
    cases stored
  | some held =>
    have named : held.id = other := (Table.mem_of_get? found).2
    rw [Option.any_some, takesVersion, named]
    simp [eq_comm]

theorem deleteWorkflow_eq {id : WorkflowId} (stored : store.workflows.contains id = true) :
    (store.deleteWorkflow id).2 = (workflow id).remainder store := by
  have erased : store.workflows.erase id =
      store.workflows.filter (fun held => !(workflow id).takesWorkflow held) :=
    Table.filter_congr fun held _ => by simp [takesWorkflow, Filed.idOf, eq_comm]
  rw [WorkflowStore.deleteWorkflow_of_contains stored, erased, ← takesVersionId_workflow]
  exact withoutVersions_takesVersionId fun _ => nofun

theorem deleteVersion_eq {id : VersionId} (stored : store.versions.contains id = true) :
    (store.deleteVersion id).2 = (version id).remainder store := by
  have kept : store.workflows.filter (fun held => !(version id).takesWorkflow held) =
      store.workflows :=
    Table.filter_eq_self fun held _ => by simp [takesWorkflow]
  have removed : _ = (version id).remainder store :=
    withoutVersions_takesVersionId fun _ => nofun
  rw [WorkflowStore.deleteVersion_of_contains stored, ← takesVersionId_version stored,
    ← removed, kept]
  rfl

theorem deleteNode_eq {id : NodeId} (stored : store.nodes.contains id = true) :
    (store.deleteNode id).2 = (node id).remainder store := by
  rw [WorkflowStore.deleteNode_of_contains stored, withoutNodes_named stored]

/-- A delete of something stored yields one and removes exactly what belongs to it, every other
record staying as it is; a delete of anything else yields zero and changes nothing. -/
theorem deletes_exact (deletion : Deletion) (store : WorkflowStore) :
    outcome deletion.program store =
      if deletion.isStored store then (.ok 1, deletion.remainder store) else (.ok 0, store) := by
  cases deletion with
  | workflow id =>
    show (Except.ok (store.deleteWorkflow id).1, (store.deleteWorkflow id).2) = _
    cases stored : store.workflows.contains id with
    | true =>
      rw [deleteWorkflow_eq stored, isStored, if_pos stored, WorkflowStore.deleteWorkflow,
        if_pos stored]
    | false => simp [isStored, WorkflowStore.deleteWorkflow, stored]
  | version id =>
    show (Except.ok (store.deleteVersion id).1, (store.deleteVersion id).2) = _
    cases stored : store.versions.contains id with
    | true =>
      rw [deleteVersion_eq stored, isStored, if_pos stored, WorkflowStore.deleteVersion,
        if_pos stored]
    | false => simp [isStored, WorkflowStore.deleteVersion, stored]
  | node id =>
    show (Except.ok (store.deleteNode id).1, (store.deleteNode id).2) = _
    cases stored : store.nodes.contains id with
    | true =>
      rw [deleteNode_eq stored, isStored, if_pos stored, WorkflowStore.deleteNode,
        if_pos stored]
    | false => simp [isStored, WorkflowStore.deleteNode, stored]

end Deletion

end NodeSteward
