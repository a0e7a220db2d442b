import NodeSteward.Proofs.Workflow.Consistency
import NodeSteward.Proofs.Workflow.Neighbours

/-!
# One picture of a graph

Three look-ups of the store show something of a graph: the links into a node with the nodes they
come from, the links out of it with the nodes they lead to, and the nodes of a version into which
no link leads.  The first two join links with nodes, and a link whose other end is missing drops
out of them.  The third looks at links alone.  So the three could show different graphs.

They do not where both ends of every link are stored, as they are after every history of edits.
Then every link stands in the view of its parent and in the view of its child, once in each of them
and in no other view, and what has no parents to show is what is found as a root.
-/

namespace NodeSteward

open WorkflowProgram (outcome)

namespace WorkflowStore

variable {store : WorkflowStore} {side : Side} {id : NodeId} {link : Link} {node : Node}

/-- Both ends of every link are found. -/
theorem Consistent.node?_far (consistent : store.Consistent) (side : Side)
    (listed : link ∈ store.links.rows) : ∃ node, store.node? (side.far link) = some node := by
  rcases consistent.joined link listed with ⟨version, parent, child⟩
  apply Option.isSome_iff_exists.mp
  cases side with
  | above => exact parent.isSome_node?
  | below => exact child.isSome_node?

/-- Among the neighbours at its near end a link stands once, with the node at its far end. -/
theorem filter_link_neighbours (listed : link ∈ store.links.rows)
    (found : store.node? (side.far link) = some node) :
    (store.neighbours side (side.near link)).filter (fun linked => linked.link.id = link.id) =
      [⟨link, node⟩] := by
  have nodup : (store.neighbours side (side.near link)).Nodup :=
    .of_map LinkedNode.link (store.nodup_neighbours side _)
  apply List.perm_singleton.mp
  refine (List.perm_ext_iff_of_nodup (nodup.filter _) (List.nodup_singleton _)).mpr ?_
  rintro ⟨other, shown⟩
  rw [List.mem_filter, mem_neighbours, decide_eq_true_iff, List.mem_singleton]
  constructor
  · rintro ⟨⟨otherListed, _, joined⟩, same⟩
    cases Table.eq_of_mem_of_idOf otherListed listed same
    cases joined.symm.trans found
    rfl
  · rintro ⟨⟩
    exact ⟨⟨listed, rfl, found⟩, rfl⟩

/-- Neighbours come by their slots and then by their links, and no two come at the same place. -/
theorem ordered_neighbours (store : WorkflowStore) (side : Side) (id : NodeId) :
    (store.neighbours side id).Pairwise (fun first second =>
      side.slot first.link < side.slot second.link ∨
        (side.slot first.link = side.slot second.link ∧
          first.link.id.raw < second.link.id.raw)) := by
  have distinct := List.pairwise_map.mp (store.nodup_neighbours side id)
  refine ((store.sorted_neighbours side id).and distinct).imp_of_mem ?_
  rintro first second listed listedToo ⟨before, different⟩
  have stored := (mem_neighbours.mp listed).1
  have storedToo := (mem_neighbours.mp listedToo).1
  have apart : first.link.id.raw ≠ second.link.id.raw := by
    intro same
    exact different (Table.eq_of_mem_of_idOf stored storedToo (Id.ext_raw same))
  rw [Side.order_iff] at before
  rw [Int32.lt_iff_toInt_lt, ← Int32.toInt_inj]
  omega

/-- A node has nothing above it exactly if no link leads to it. -/
theorem Consistent.parentLinks_eq_nil_iff (consistent : store.Consistent) :
    store.parentLinks id = [] ↔ ∀ link ∈ store.links.rows, link.child ≠ id := by
  rw [List.eq_nil_iff_forall_not_mem]
  constructor
  · rintro none link listed rfl
    rcases consistent.node?_far .above listed with ⟨parent, found⟩
    have shown : ⟨link, parent⟩ ∈ store.neighbours .above link.child :=
      mem_neighbours.mpr ⟨listed, rfl, found⟩
    exact none _ shown
  · intro free linked shown
    have shown : linked ∈ store.neighbours .above id := shown
    rcases mem_neighbours.mp shown with ⟨listed, leads, _⟩
    exact free linked.link listed leads

end WorkflowStore

namespace NodeView

/-- The view of a node as it is loaded when nothing disturbs the loading. -/
def Loaded (store : WorkflowStore) (id : NodeId) (view : NodeView) : Prop :=
  outcome (load? id) store = (.ok (some view), store)

/-- What a view shows is what is stored: of its lists each belongs to its node, and comes by slots
and then by links. -/
structure Shows (store : WorkflowStore) (view : NodeView) : Prop where
  node : view.node ∈ store.nodes.rows
  parents : ∀ linked ∈ view.parents, linked.link ∈ store.links.rows ∧
    linked.link.child = view.node.id ∧ store.node? linked.link.parent = some linked.node
  children : ∀ linked ∈ view.children, linked.link ∈ store.links.rows ∧
    linked.link.parent = view.node.id ∧ store.node? linked.link.child = some linked.node
  parentOrder : view.parents.Pairwise (fun first second =>
    first.link.input < second.link.input ∨
      (first.link.input = second.link.input ∧ first.link.id.raw < second.link.id.raw))
  childOrder : view.children.Pairwise (fun first second =>
    first.link.output < second.link.output ∨
      (first.link.output = second.link.output ∧ first.link.id.raw < second.link.id.raw))

theorem shows_viewOf {store : WorkflowStore} {node : Node} (stored : node ∈ store.nodes.rows) :
    Shows store (store.viewOf node) where
  node := stored
  parents linked listed := by
    have above : linked ∈ store.neighbours .above node.id := listed
    exact WorkflowStore.mem_neighbours.mp above
  children linked listed := by
    have below : linked ∈ store.neighbours .below node.id := listed
    exact WorkflowStore.mem_neighbours.mp below
  parentOrder := store.ordered_neighbours .above node.id
  childOrder := store.ordered_neighbours .below node.id

/-- After every history of edits the views of the nodes and the roots of the versions show one
graph: a link stands once in the view of its parent, with its child, and once in the view of its
child, with its parent; in a view stand only links of its node, in their order; and the roots of
a version are its nodes whose views show no parents. -/
theorem edited_views_agree (edits : List (Timestamp × WorkflowEdit)) :
    let store := WorkflowEdit.applyAll .empty edits
    (∀ link ∈ store.links.rows, ∃ above below,
        Loaded store link.parent above ∧ Loaded store link.child below ∧
        above.children.filter (fun linked => linked.link.id = link.id) = [⟨link, below.node⟩] ∧
        below.parents.filter (fun linked => linked.link.id = link.id) = [⟨link, above.node⟩]) ∧
      ∀ node ∈ store.nodes.rows, ∃ view, Loaded store node.id view ∧ view.node = node ∧
        Shows store view ∧
        ∀ version, node ∈ store.rootNodes version ↔
          node.versionId = version ∧ view.parents = [] := by
  intro store
  have consistent : store.Consistent := .applyAll edits
  constructor
  · intro link listed
    rcases consistent.node?_far .above listed with ⟨parent, parentFound⟩
    rcases consistent.node?_far .below listed with ⟨child, childFound⟩
    rcases WorkflowStore.node?_eq_some_iff.mp parentFound with ⟨parentStored, parentNamed⟩
    rcases WorkflowStore.node?_eq_some_iff.mp childFound with ⟨childStored, childNamed⟩
    have below := WorkflowStore.filter_link_neighbours listed childFound
    have above := WorkflowStore.filter_link_neighbours listed parentFound
    -- the near end of a link on one side is its far end on the other
    rw [show Side.near .below link = parent.id from parentNamed.symm] at below
    rw [show Side.near .above link = child.id from childNamed.symm] at above
    have parentLoads := outcome_load?_of_mem parentStored
    have childLoads := outcome_load?_of_mem childStored
    rw [show parent.id = link.parent from parentNamed] at parentLoads
    rw [show child.id = link.child from childNamed] at childLoads
    exact ⟨store.viewOf parent, store.viewOf child, parentLoads, childLoads, below, above⟩
  · intro node stored
    refine ⟨store.viewOf node, outcome_load?_of_mem stored, rfl, shows_viewOf stored, ?_⟩
    intro version
    have parents : (store.viewOf node).parents = [] ↔
        ∀ link ∈ store.links.rows, link.child ≠ node.id := consistent.parentLinks_eq_nil_iff
    rw [WorkflowStore.mem_rootNodes, parents]
    exact and_iff_right stored

end NodeView

end NodeSteward
