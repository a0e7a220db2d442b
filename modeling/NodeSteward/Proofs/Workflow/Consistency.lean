import NodeSteward.Proofs.Workflow.Change

/-!
# Links stay inside a version

Whatever is edited, both ends of every stored link are stored, and in one version.  The check on
the ends is made when a link is written; the cascades of deletes take every link along that loses
an end; and a node never changes its version, because an identifier is handed out only once.
-/

namespace NodeSteward

namespace WorkflowStore

variable {store : WorkflowStore}

/-- Two nodes are stored in one version. -/
def Together (store : WorkflowStore) (first second : NodeId) : Prop :=
  ∃ version, store.InVersion version first ∧ store.InVersion version second

/-- What holds of a store that has only been edited. -/
structure Consistent (store : WorkflowStore) : Prop where
  /-- No stored node carries an identifier that is still to be handed out. -/
  issued : ∀ node ∈ store.nodes.rows, node.id.raw ≤ store.issued
  joined : ∀ link ∈ store.links.rows, store.Together link.parent link.child

theorem inVersion_iff_node? {version : VersionId} {id : NodeId} :
    store.InVersion version id ↔ ∃ node, store.node? id = some node ∧ node.versionId = version := by
  constructor
  · rintro ⟨node, member, named, owned⟩
    exact ⟨node, Table.get?_eq_some_iff.mpr ⟨member, named⟩, owned⟩
  · rintro ⟨node, found, owned⟩
    rcases Table.get?_eq_some_iff.mp found with ⟨member, named⟩
    exact ⟨node, member, named, owned⟩

/-- A node is stored in one version only. -/
theorem InVersion.unique {version other : VersionId} {id : NodeId}
    (here : store.InVersion version id) (there : store.InVersion other id) : version = other := by
  rcases inVersion_iff_node?.mp here with ⟨node, found, owned⟩
  rcases inVersion_iff_node?.mp there with ⟨same, again, owner⟩
  rw [found] at again
  rw [← owned, ← owner, Option.some.inj again]

theorem InVersion.isSome_node? {version : VersionId} {id : NodeId}
    (stored : store.InVersion version id) : (store.node? id).isSome := by
  rcases inVersion_iff_node?.mp stored with ⟨node, found, _⟩
  rw [found]
  rfl

/-- Nodes that stay in their versions stay together. -/
theorem Together.imp {after : WorkflowStore} {first second : NodeId}
    (together : store.Together first second)
    (firstStays : ∀ version, store.InVersion version first → after.InVersion version first)
    (secondStays : ∀ version, store.InVersion version second → after.InVersion version second) :
    after.Together first second := by
  rcases together with ⟨version, firstIn, secondIn⟩
  exact ⟨version, firstStays version firstIn, secondStays version secondIn⟩

/-- Nodes outlive the removal of other nodes. -/
theorem InVersion.withoutNodes {gone : NodeId → Bool} {version : VersionId} {id : NodeId}
    (stored : store.InVersion version id) (spared : gone id = false) :
    (store.withoutNodes gone).InVersion version id := by
  rcases stored with ⟨node, member, named, owned⟩
  refine ⟨node, Table.mem_rows_filter.mpr ⟨member, ?_⟩, named, owned⟩
  rw [named, spared]
  rfl

/-- Nodes outlive the removal of versions that do not own them. -/
theorem InVersion.withoutVersions {gone : VersionId → Bool} {version : VersionId} {id : NodeId}
    (stored : store.InVersion version id) (spared : gone version = false) :
    (store.withoutVersions gone).InVersion version id := by
  rcases stored with ⟨node, member, named, owned⟩
  exact ⟨node, mem_nodes_withoutVersions.mpr ⟨member, by rw [owned, spared]⟩, named, owned⟩

/-- Nodes stay in their versions whatever is written to one of them. -/
theorem InVersion.writeNode {version : VersionId} {id : NodeId}
    (stored : store.InVersion version id) (written : NodeId) {change : Node → Node}
    {keeps : ∀ held, Filed.idOf (change held) = (Filed.idOf held : NodeId)}
    (owner : ∀ held, (change held).versionId = held.versionId) :
    InVersion { store with nodes := store.nodes.modify written change keeps } version id := by
  rcases stored with ⟨held, old, named, owned⟩
  have member : (if Filed.idOf held = written then change held else held) ∈
      (store.nodes.modify written change keeps).rows :=
    (Table.mem_rows_modify keeps).mpr ⟨held, old, rfl⟩
  refine ⟨_, member, ?_, ?_⟩
  · split
    · exact (keeps held).trans named
    · exact named
  · split
    · exact (owner held).trans owned
    · exact owned

namespace Consistent

theorem empty : WorkflowStore.empty.Consistent where
  issued _ member := absurd member List.not_mem_nil
  joined _ member := absurd member List.not_mem_nil

/-- Changes that leave links alone, and every node in its version. -/
theorem of_stays (consistent : store.Consistent) {after : WorkflowStore}
    (issued : ∀ node ∈ after.nodes.rows, node.id.raw ≤ after.issued)
    (stays : ∀ version id, store.InVersion version id → after.InVersion version id)
    (links : after.links = store.links) : after.Consistent where
  issued := issued
  joined link member := by
    rw [links] at member
    exact (consistent.joined link member).imp (fun _ => stays _ _) (fun _ => stays _ _)

theorem of_same_graph (consistent : store.Consistent) {after : WorkflowStore}
    (issued : store.issued ≤ after.issued) (nodes : after.nodes = store.nodes)
    (links : after.links = store.links) : after.Consistent := by
  refine consistent.of_stays ?_ ?_ links
  · intro node member
    rw [nodes] at member
    exact Int.le_trans (consistent.issued node member) (Int.ofNat_le.mpr issued)
  · intro version id stored
    unfold InVersion
    rw [nodes]
    exact stored

theorem withoutNodes (consistent : store.Consistent) (gone : NodeId → Bool) :
    (store.withoutNodes gone).Consistent where
  issued node member := consistent.issued node (Table.mem_rows_filter.mp member).1
  joined link member := by
    rcases Table.mem_rows_filter.mp member with ⟨listed, spared⟩
    rw [Bool.and_eq_true, Bool.not_eq_true', Bool.not_eq_true'] at spared
    exact (consistent.joined link listed).imp (fun _ stored => stored.withoutNodes spared.1)
      (fun _ stored => stored.withoutNodes spared.2)

theorem withoutVersions (consistent : store.Consistent) (gone : VersionId → Bool) :
    (store.withoutVersions gone).Consistent where
  issued node member := consistent.issued node (mem_nodes_withoutVersions.mp member).1
  joined link member := (consistent.withoutNodes _).joined link (Table.mem_rows_filter.mp member).1

/-- A new node takes no identifier away from another one. -/
theorem inVersion_addNode (consistent : store.Consistent) (node : NewNode) {version : VersionId}
    {id : NodeId} (stored : store.InVersion version id) :
    InVersion
      { store with
        issued := store.issued + 1
        nodes := store.nodes.insert (node.withId (store.nextId .node)) } version id := by
  rcases stored with ⟨held, old, named, owned⟩
  refine ⟨held, Table.mem_rows_insert.mpr (Or.inr ⟨old, ?_⟩), named, owned⟩
  intro same
  have bound := consistent.issued held old
  have next : held.id = store.nextId .node := same
  rw [next] at bound
  exact absurd bound (Int.not_le.mpr (Int.lt_succ _))

theorem addNode (consistent : store.Consistent) (node : NewNode) :
    Consistent
      { store with
        issued := store.issued + 1
        nodes := store.nodes.insert (node.withId (store.nextId .node)) } := by
  refine consistent.of_stays ?_ (fun _ _ => consistent.inVersion_addNode node) rfl
  intro held member
  rcases Table.mem_rows_insert.mp member with rfl | ⟨old, _⟩
  · exact Int.le_refl _
  · exact Int.le_trans (consistent.issued held old) (Int.ofNat_le.mpr (Nat.le_succ _))

theorem writeNode (consistent : store.Consistent) (id : NodeId) {change : Node → Node}
    {keeps : ∀ held, Filed.idOf (change held) = (Filed.idOf held : NodeId)}
    (owner : ∀ held, (change held).versionId = held.versionId) :
    Consistent { store with nodes := store.nodes.modify id change keeps } := by
  refine consistent.of_stays ?_ (fun _ _ stored => stored.writeNode id owner) rfl
  intro node member
  rcases (Table.mem_rows_modify keeps).mp member with ⟨held, old, rfl⟩
  have named : (if Filed.idOf held = id then change held else held).id = held.id := by
    split
    · exact keeps held
    · rfl
  rw [named]
  exact consistent.issued held old

/-- Writing to the table of links, as long as every link joins nodes of one version. -/
theorem of_links (consistent : store.Consistent) {issued : Nat} {links : Table Link}
    (more : store.issued ≤ issued)
    (joins : ∀ link ∈ links.rows,
      link ∈ store.links.rows ∨ store.Together link.parent link.child) :
    Consistent { store with issued, links } where
  issued node member :=
    Int.le_trans (consistent.issued node member) (Int.ofNat_le.mpr more)
  joined link member := by
    rcases joins link member with old | together
    · exact consistent.joined link old
    · exact together

/-- Every change keeps a store consistent. -/
theorem of_changes {after : WorkflowStore} {edit : WorkflowEdit} (consistent : store.Consistent)
    (changes : store.Changes edit after) : after.Consistent := by
  cases changes with
  | nothing => exact consistent
  | workflowAdded => exact consistent.of_same_graph (Nat.le_succ _) rfl rfl
  | workflowWritten => exact consistent.of_same_graph (Nat.le_refl _) rfl rfl
  | workflowDeleted id =>
    exact (consistent.withoutVersions _).of_same_graph (Nat.le_refl _) rfl rfl
  | versionAdded => exact consistent.of_same_graph (Nat.le_succ _) rfl rfl
  | versionWritten => exact consistent.of_same_graph (Nat.le_refl _) rfl rfl
  | versionDeleted id => exact consistent.withoutVersions _
  | nodeAdded given node => exact consistent.addNode node
  | nodeWritten given change keeps owner => exact consistent.writeNode given.id owner
  | nodeDeleted id => exact consistent.withoutNodes _
  | linkAdded given link same parent child =>
    refine consistent.of_links (Nat.le_succ _) ?_
    intro other member
    rcases Table.mem_rows_insert.mp member with rfl | ⟨old, _⟩
    · rw [← same.2.1] at parent
      rw [← same.2.2] at child
      exact Or.inr ⟨_, parent, child⟩
    · exact Or.inl old
  | linkWritten given change keeps owner joins parent child =>
    refine consistent.of_links (Nat.le_refl _) ?_
    intro other member
    rcases (Table.mem_rows_modify keeps).mp member with ⟨held, old, rfl⟩
    split
    · rw [(joins held).1, (joins held).2]
      exact Or.inr ⟨_, parent, child⟩
    · exact Or.inl old
  | linkDeleted id =>
    refine consistent.of_links (Nat.le_refl _) ?_
    intro other member
    exact Or.inl (Table.mem_rows_erase.mp member).1
  | logAdded => exact consistent.of_same_graph (Nat.le_refl _) rfl rfl

/-- The store is consistent after every history of edits. -/
theorem applyAll (edits : List (Timestamp × WorkflowEdit)) :
    (WorkflowEdit.applyAll WorkflowStore.empty edits).Consistent :=
  WorkflowEdit.applyAll_of_changes
    (fun _ _ _ consistent changes => consistent.of_changes changes) edits empty

end Consistent

end WorkflowStore

end NodeSteward
