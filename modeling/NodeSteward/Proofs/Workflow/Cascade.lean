import NodeSteward.Proofs.Table
import NodeSteward.Workflow.Store

/-!
# What a delete takes along

Deleting a version goes over its nodes one by one, and deleting a workflow goes over its versions.
What such a loop leaves is said here in one piece: the rows that it keeps, as a filter of the rows
that were there.  A node takes its links and its log entries along, a version its nodes and the
links that carry its identifier.
-/

namespace NodeSteward

namespace WorkflowStore

variable {store : WorkflowStore}

/-- The store without some of its nodes, and without what touches them. -/
def withoutNodes (store : WorkflowStore) (gone : NodeId → Bool) : WorkflowStore :=
  { store with
    nodes := store.nodes.filter (fun node => !gone node.id)
    links := store.links.filter (fun link => !gone link.parent && !gone link.child)
    logs := store.logs.filter (fun entry => !gone entry.node) }

/-- True when a node is stored in one of some versions. -/
def nodeWithin (store : WorkflowStore) (versions : VersionId → Bool) (id : NodeId) : Bool :=
  (store.node? id).any (fun node => versions node.versionId)

/-- The store without some of its versions, and without what belongs to them. -/
def withoutVersions (store : WorkflowStore) (gone : VersionId → Bool) : WorkflowStore :=
  let emptied := store.withoutNodes (store.nodeWithin gone)
  { emptied with
    versions := store.versions.filter (fun version => !gone version.id)
    links := emptied.links.filter (fun link => !gone link.versionId) }

/-- A loop that removes distinct records one by one removes them all, as long as removals add up
and none of them takes along a record whose turn is still to come. -/
theorem foldl_remove {kind : IdKind} {ρ : Type} [Filed kind ρ]
    (without : WorkflowStore → (Id kind → Bool) → WorkflowStore)
    (none : ∀ current, without current (fun _ => false) = current)
    (both : ∀ current gone others,
      without (without current gone) others = without current (fun id => gone id || others id))
    (holds : WorkflowStore → Id kind → Prop)
    (kept : ∀ {current gone id}, holds current id → gone id = false →
      holds (without current gone) id)
    (remove : WorkflowStore → Id kind → WorkflowStore)
    (one : ∀ {current id}, holds current id →
      remove current id = without current (fun other => other = id))
    {records : List ρ} (distinct : (records.map Filed.idOf).Nodup)
    (held : ∀ record ∈ records, holds store (Filed.idOf record)) :
    records.foldl (fun current record => remove current (Filed.idOf record)) store =
      without store (fun id => records.any (fun record => id = Filed.idOf record)) := by
  induction records generalizing store with
  | nil => exact (none store).symm
  | cons record rest ih =>
    rw [List.map_cons, List.nodup_cons] at distinct
    rw [List.foldl_cons, one (held record List.mem_cons_self), ih distinct.2]
    · rw [both]
      simp only [List.any_cons]
    · intro other member
      apply kept (held other (List.mem_cons_of_mem _ member))
      apply decide_eq_false
      intro same
      exact distinct.1 (same ▸ List.mem_map_of_mem member)

theorem deleteNode_of_contains {id : NodeId} (held : store.nodes.contains id = true) :
    (store.deleteNode id).2 = store.withoutNodes (fun other => other = id) := by
  unfold deleteNode withoutNodes Table.erase
  rw [if_pos held]
  simp only [ne_eq, decide_not]
  rfl

theorem contains_withoutNodes {gone : NodeId → Bool} {id : NodeId}
    (held : store.nodes.contains id = true) (spared : gone id = false) :
    (store.withoutNodes gone).nodes.contains id = true := by
  apply Table.contains_filter held
  intro node filed
  have named : node.id = id := filed
  rw [named, spared]
  rfl

theorem withoutNodes_withoutNodes (store : WorkflowStore) (gone others : NodeId → Bool) :
    (store.withoutNodes gone).withoutNodes others =
      store.withoutNodes (fun id => gone id || others id) := by
  unfold withoutNodes
  simp only [Table.filter_filter, List.filter_filter, Bool.not_or]
  congr 1
  · refine Table.filter_congr ?_
    intro link _
    cases gone link.parent <;> cases gone link.child <;> simp
  · refine List.filter_congr ?_
    intro entry _
    exact Bool.and_comm _ _

theorem withoutNodes_none (store : WorkflowStore) :
    store.withoutNodes (fun _ => false) = store := by
  have nodes : store.nodes.filter (fun _ => !false) = store.nodes :=
    Table.filter_eq_self (fun _ _ => rfl)
  have links : store.links.filter (fun _ => !false && !false) = store.links :=
    Table.filter_eq_self (fun _ _ => rfl)
  have logs : store.logs.filter (fun _ => !false) = store.logs :=
    List.filter_eq_self.mpr (fun _ _ => rfl)
  unfold withoutNodes
  rw [nodes, links, logs]

/-- Deleting stored nodes one after the other. -/
theorem foldl_deleteNode {nodes : List Node} (distinct : (nodes.map Node.id).Nodup)
    (held : ∀ node ∈ nodes, store.nodes.contains node.id = true) :
    nodes.foldl (fun current node => (current.deleteNode node.id).2) store =
      store.withoutNodes (fun id => nodes.any (fun node => id = node.id)) :=
  foldl_remove withoutNodes withoutNodes_none withoutNodes_withoutNodes
    (fun current id => current.nodes.contains id = true) contains_withoutNodes
    (fun current id => (current.deleteNode id).2) deleteNode_of_contains distinct held

theorem nodeWithin_of_mem {versions : VersionId → Bool} {node : Node}
    (member : node ∈ store.nodes.rows) :
    store.nodeWithin versions node.id = versions node.versionId := by
  have found : store.node? node.id = some node := Table.get?_eq_some_iff.mpr ⟨member, rfl⟩
  rw [nodeWithin, found, Option.any_some]

theorem deleteVersion_of_contains {id : VersionId} (held : store.versions.contains id = true) :
    (store.deleteVersion id).2 = store.withoutVersions (fun version => version = id) := by
  have distinct : ((store.nodesOf id).map Node.id).Nodup :=
    store.nodes.nodup_rows_idOf.sublist (List.filter_sublist.map _)
  have stored : ∀ node ∈ store.nodesOf id,
      ({ store with versions := store.versions.erase id }).nodes.contains node.id = true := by
    intro node listed
    exact Table.contains_of_mem (List.mem_filter.mp listed).1
  have emptied := foldl_deleteNode distinct stored
  have same : (fun other => (store.nodesOf id).any (fun node => other = node.id)) =
      store.nodeWithin (fun version => version = id) := by
    funext other
    exact store.nodes.any_filter_rows _ other
  rw [same] at emptied
  unfold deleteVersion
  rw [if_pos held]
  dsimp only
  rw [emptied]
  unfold withoutVersions withoutNodes Table.erase
  simp only [ne_eq, decide_not]
  rfl

theorem mem_nodes_withoutVersions {gone : VersionId → Bool} {node : Node} :
    node ∈ (store.withoutVersions gone).nodes.rows ↔
      node ∈ store.nodes.rows ∧ gone node.versionId = false := by
  show node ∈ (store.nodes.filter (fun node => !store.nodeWithin gone node.id)).rows ↔ _
  rw [Table.mem_rows_filter]
  constructor
  · rintro ⟨member, spared⟩
    rw [nodeWithin_of_mem member, Bool.not_eq_true'] at spared
    exact ⟨member, spared⟩
  · rintro ⟨member, spared⟩
    rw [nodeWithin_of_mem member, Bool.not_eq_true']
    exact ⟨member, spared⟩

/-- The nodes within further versions, once some versions are gone. -/
theorem nodeWithin_withoutVersions (store : WorkflowStore) (gone others : VersionId → Bool)
    (id : NodeId) :
    (store.withoutVersions gone).nodeWithin others id =
      (!store.nodeWithin gone id && store.nodeWithin others id) := by
  show ((store.nodes.filter (fun node => !store.nodeWithin gone node.id)).get? id).any _ = _
  rw [Table.get?_filter]
  cases found : store.nodes.get? id with
  | none => simp [nodeWithin, node?, found]
  | some node =>
    have named : node.id = id := (Table.get?_eq_some_iff.mp found).2
    have within : ∀ versions : VersionId → Bool,
        store.nodeWithin versions id = versions node.versionId := by
      intro versions
      rw [← named]
      exact nodeWithin_of_mem (Table.get?_eq_some_iff.mp found).1
    rw [within, within]
    cases spared : gone node.versionId <;> simp [named, within, spared]

theorem withoutVersions_withoutVersions (store : WorkflowStore) (gone others : VersionId → Bool) :
    (store.withoutVersions gone).withoutVersions others =
      store.withoutVersions (fun version => gone version || others version) := by
  have within : ∀ id, store.nodeWithin (fun version => gone version || others version) id =
      (store.nodeWithin gone id || store.nodeWithin others id) := by
    intro id
    unfold nodeWithin
    cases store.node? id <;> rfl
  have later : (store.withoutVersions gone).nodeWithin others =
      fun id => !store.nodeWithin gone id && store.nodeWithin others id := by
    funext id
    exact store.nodeWithin_withoutVersions gone others id
  rw [withoutVersions, later]
  unfold withoutVersions withoutNodes
  simp only [Table.filter_filter, List.filter_filter, within]
  congr 1
  · refine Table.filter_congr ?_
    intro version _
    cases gone version.id <;> rfl
  · refine Table.filter_congr ?_
    intro node _
    cases store.nodeWithin gone node.id <;> simp
  · refine Table.filter_congr ?_
    intro link _
    cases store.nodeWithin gone link.parent <;> cases store.nodeWithin gone link.child <;>
      cases gone link.versionId <;> simp
  · refine List.filter_congr ?_
    intro entry _
    cases store.nodeWithin gone entry.node <;> simp

theorem withoutVersions_none (store : WorkflowStore) :
    store.withoutVersions (fun _ => false) = store := by
  have within : store.nodeWithin (fun _ => false) = fun _ => false := by
    funext id
    unfold nodeWithin
    cases store.node? id <;> rfl
  have versions : store.versions.filter (fun _ => !false) = store.versions :=
    Table.filter_eq_self (fun _ _ => rfl)
  have links : store.links.filter (fun _ => !false) = store.links :=
    Table.filter_eq_self (fun _ _ => rfl)
  unfold withoutVersions
  rw [within, withoutNodes_none, versions]
  dsimp only
  rw [links]

theorem contains_withoutVersions {gone : VersionId → Bool} {id : VersionId}
    (held : store.versions.contains id = true) (spared : gone id = false) :
    (store.withoutVersions gone).versions.contains id = true := by
  apply Table.contains_filter held
  intro version filed
  have named : version.id = id := filed
  rw [named, spared]
  rfl

theorem foldl_deleteVersion {versions : List Version} (distinct : (versions.map Version.id).Nodup)
    (held : ∀ version ∈ versions, store.versions.contains version.id = true) :
    versions.foldl (fun current version => (current.deleteVersion version.id).2) store =
      store.withoutVersions (fun id => versions.any (fun version => id = version.id)) :=
  foldl_remove withoutVersions withoutVersions_none withoutVersions_withoutVersions
    (fun current id => current.versions.contains id = true) contains_withoutVersions
    (fun current id => (current.deleteVersion id).2) deleteVersion_of_contains distinct held

/-- True for the stored versions of a workflow. -/
def ownsVersion (store : WorkflowStore) (owner : WorkflowId) (id : VersionId) : Bool :=
  (store.version? id).any (fun version => version.workflowId = owner)

/-- Deleting a workflow leaves the store without it and without its versions. -/
theorem deleteWorkflow_of_contains {id : WorkflowId} (held : store.workflows.contains id = true) :
    (store.deleteWorkflow id).2 =
      { store.withoutVersions (store.ownsVersion id) with
        workflows := store.workflows.erase id } := by
  have distinct : ((store.versionsOf id).map Version.id).Nodup :=
    store.versions.nodup_rows_idOf.sublist (List.filter_sublist.map _)
  have stored : ∀ version ∈ store.versionsOf id,
      ({ store with workflows := store.workflows.erase id }).versions.contains version.id =
        true := by
    intro version listed
    exact Table.contains_of_mem (List.mem_filter.mp listed).1
  have emptied := foldl_deleteVersion distinct stored
  have same : (fun other => (store.versionsOf id).any (fun version => other = version.id)) =
      store.ownsVersion id := by
    funext other
    exact store.versions.any_filter_rows _ other
  rw [same] at emptied
  unfold deleteWorkflow
  rw [if_pos held]
  dsimp only
  rw [emptied]
  rfl

end WorkflowStore

end NodeSteward
