import Mathlib.Logic.Relation
import NodeSteward.Proofs.Table
import NodeSteward.Workflow.Store

/-!
# Reaching nodes along stored links

The graph that a walk through a store explores, said without the walk: a stored link leads from its
parent to its child if both are stored.  Reaching a node, lying on a cycle and being a root of a
version are stated on this relation alone.  The look-ups of the store that the walk relies on are
tied to it here: the child links of a node are the stored links out of it, each once, and the root
nodes of a version are the nodes that no link leads to, in ascending order.
-/

namespace NodeSteward

namespace WorkflowStore

variable {store : WorkflowStore}

/-- A stored link leads from one stored node to another. -/
def LeadsTo (store : WorkflowStore) (parent child : NodeId) : Prop :=
  (store.node? parent).isSome ∧ (store.node? child).isSome ∧
    ∃ link ∈ store.links.rows, link.parent = parent ∧ link.child = child

/-- Stored links lead from one node to another in any number of steps, none included. -/
def Reaches (store : WorkflowStore) : NodeId → NodeId → Prop :=
  Relation.ReflTransGen store.LeadsTo

/-- A node that stored links lead back to.  A link from a node to itself counts. -/
def OnCycle (store : WorkflowStore) (id : NodeId) : Prop :=
  Relation.TransGen store.LeadsTo id id

/-- A node that is reached from one of the given roots. -/
def ReachedFrom (store : WorkflowStore) (roots : Node → Prop) (id : NodeId) : Prop :=
  ∃ root, roots root ∧ store.Reaches root.id id

/-- A stored node of a version into which no stored link leads, wherever that link comes from. -/
def IsRoot (store : WorkflowStore) (version : VersionId) (node : Node) : Prop :=
  node ∈ store.nodes.rows ∧ node.versionId = version ∧
    ∀ link ∈ store.links.rows, link.child ≠ node.id

theorem node?_eq_some_iff {id : NodeId} {node : Node} :
    store.node? id = some node ↔ node ∈ store.nodes.rows ∧ node.id = id :=
  Table.get?_eq_some_iff

theorem isSome_node?_iff {id : NodeId} :
    (store.node? id).isSome ↔ ∃ node ∈ store.nodes.rows, node.id = id :=
  Table.get?_isSome_iff

theorem ReachedFrom.step {roots : Node → Prop} {parent child : NodeId}
    (reached : store.ReachedFrom roots parent) (leads : store.LeadsTo parent child) :
    store.ReachedFrom roots child := by
  rcases reached with ⟨root, isRoot, path⟩
  exact ⟨root, isRoot, path.tail leads⟩

theorem ReachedFrom.root {roots : Node → Prop} {root : Node} (isRoot : roots root) :
    store.ReachedFrom roots root.id :=
  ⟨root, isRoot, Relation.ReflTransGen.refl⟩

theorem ReachedFrom.mono {roots others : Node → Prop} {id : NodeId}
    (included : ∀ root, roots root → others root) (reached : store.ReachedFrom roots id) :
    store.ReachedFrom others id := by
  rcases reached with ⟨root, isRoot, path⟩
  exact ⟨root, included root isRoot, path⟩

/-- Where links lead from lower to higher identifiers, no node lies on a cycle. -/
theorem not_onCycle_of_rising
    (rising : ∀ link ∈ store.links.rows, link.parent.raw < link.child.raw) (id : NodeId) :
    ¬ store.OnCycle id := by
  have climbs : ∀ {first second : NodeId},
      Relation.TransGen store.LeadsTo first second → first.raw < second.raw := by
    intro first second path
    induction path with
    | single leads =>
      rcases leads with ⟨_, _, link, listed, rfl, rfl⟩
      exact rising link listed
    | tail _ last ih =>
      rcases last with ⟨_, _, link, listed, rfl, rfl⟩
      exact Int.lt_trans ih (rising link listed)
  intro cycle
  exact Int.lt_irrefl _ (climbs cycle)

theorem mem_joined {other : Link → Option NodeId} {linked : LinkedNode} :
    linked ∈ store.joined other ↔
      linked.link ∈ store.links.rows ∧
        (other linked.link).bind store.node? = some linked.node := by
  simp only [joined, List.mem_filterMap]
  constructor
  · rintro ⟨link, member, found⟩
    rcases Option.map_eq_some_iff.mp found with ⟨node, joins, same⟩
    subst same
    exact ⟨member, joins⟩
  · rintro ⟨member, found⟩
    exact ⟨linked.link, member, by rw [found]; rfl⟩

/-- A join keeps the order of the links, and takes each at most once. -/
theorem map_link_joined (store : WorkflowStore) (other : Link → Option NodeId) :
    (store.joined other).map LinkedNode.link =
      store.links.rows.filter (fun link => ((other link).bind store.node?).isSome) := by
  unfold joined
  induction store.links.rows with
  | nil => rfl
  | cons link rest ih =>
    cases found : (other link).bind store.node? with
    | none =>
      simp only [List.filterMap_cons, List.filter_cons, found, Option.map_none, Option.isSome_none,
        Bool.false_eq_true, if_false]
      exact ih
    | some node =>
      simp only [List.filterMap_cons, List.filter_cons, found, Option.map_some, Option.isSome_some,
        if_true, List.map_cons, ih]

/-- The child links of a node are the stored links out of it that lead to a stored node. -/
theorem mem_childLinks {id : NodeId} {linked : LinkedNode} :
    linked ∈ store.childLinks id ↔
      linked.link ∈ store.links.rows ∧ linked.link.parent = id ∧
        store.node? linked.link.child = some linked.node := by
  rw [childLinks, List.mem_mergeSort, mem_joined]
  by_cases leaves : linked.link.parent = id
  · simp [leaves]
  · simp [leaves]

theorem id_of_mem_childLinks {id : NodeId} {linked : LinkedNode}
    (member : linked ∈ store.childLinks id) : linked.node.id = linked.link.child :=
  (node?_eq_some_iff.mp (mem_childLinks.mp member).2.2).2

theorem mem_nodes_of_mem_childLinks {id : NodeId} {linked : LinkedNode}
    (member : linked ∈ store.childLinks id) : linked.node ∈ store.nodes.rows :=
  (node?_eq_some_iff.mp (mem_childLinks.mp member).2.2).1

/-- No link stands twice among the child links of a node. -/
theorem nodup_childLinks (store : WorkflowStore) (id : NodeId) :
    ((store.childLinks id).map LinkedNode.link).Nodup := by
  have sorted := (List.mergeSort_perm
    (store.joined (fun link => if link.parent = id then some link.child else none))
    (fun first second => first.link.outputOrder second.link)).map LinkedNode.link
  refine sorted.nodup_iff.mpr ?_
  rw [map_link_joined]
  exact store.links.nodup_rows.filter _

/-- From a stored node the child links lead exactly where stored links lead. -/
theorem leadsTo_iff_childLinks {id child : NodeId} (stored : (store.node? id).isSome) :
    store.LeadsTo id child ↔ ∃ linked ∈ store.childLinks id, linked.node.id = child := by
  constructor
  · rintro ⟨_, childStored, link, member, leaves, leads⟩
    rcases Option.isSome_iff_exists.mp childStored with ⟨node, found⟩
    refine ⟨⟨link, node⟩, mem_childLinks.mpr ⟨member, leaves, ?_⟩, ?_⟩
    · rw [leads, found]
    · exact (node?_eq_some_iff.mp found).2
  · rintro ⟨linked, member, rfl⟩
    rcases mem_childLinks.mp member with ⟨listed, leaves, found⟩
    refine ⟨stored, ?_, linked.link, listed, leaves, (id_of_mem_childLinks member).symm⟩
    exact isSome_node?_iff.mpr ⟨linked.node, mem_nodes_of_mem_childLinks member, rfl⟩

theorem mem_rootNodes {version : VersionId} {node : Node} :
    node ∈ store.rootNodes version ↔ store.IsRoot version node := by
  simp only [rootNodes, nodesOf, IsRoot, List.mem_filter, Bool.not_eq_true', List.any_eq_false,
    decide_eq_true_eq, and_assoc]

theorem mem_rootNodes_eq (store : WorkflowStore) (version : VersionId) :
    (fun node => node ∈ store.rootNodes version) = store.IsRoot version := by
  funext node
  exact propext mem_rootNodes

theorem rootNodes_ascending (store : WorkflowStore) (version : VersionId) :
    (store.rootNodes version).Pairwise (fun earlier later => earlier.id.raw < later.id.raw) :=
  (store.nodes.ascending.filter _).filter _

/-- A node that no link leads to is reached from itself only. -/
theorem IsRoot.eq_of_reaches {version : VersionId} {root : Node} {start : NodeId}
    (isRoot : store.IsRoot version root) (reached : store.Reaches start root.id) :
    start = root.id := by
  rcases Relation.ReflTransGen.cases_tail reached with same | ⟨_, _, _, _, link, member, _, leads⟩
  · exact same.symm
  · exact absurd leads (isRoot.2.2 link member)

/-- No root of a version is reached from another one. -/
theorem rootNodes_separate (store : WorkflowStore) (version : VersionId) :
    (store.rootNodes version).Pairwise
      (fun earlier later => ¬ store.Reaches earlier.id later.id) := by
  refine List.Pairwise.imp_of_mem ?_ (store.rootNodes_ascending version)
  intro earlier later _ laterListed before reached
  have same := (mem_rootNodes.mp laterListed).eq_of_reaches reached
  rw [same] at before
  exact Int.lt_irrefl _ before

end WorkflowStore

end NodeSteward
