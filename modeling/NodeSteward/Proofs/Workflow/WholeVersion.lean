import Mathlib.Data.Set.Finite.List
import Mathlib.Order.WellFounded
import NodeSteward.Proofs.Workflow.Consistency
import NodeSteward.Proofs.Workflow.Expansion

/-!
# Versions without cycles are expanded whole

A store that has only been edited keeps every link inside one version, so a walk from the roots of
a version never leaves it.  Where the links of a version close no cycle, going back along links
from any of its nodes has to end, and it ends at a root.  So the graph of such a version is the
version itself, and no node of it is lost.
-/

namespace NodeSteward

open WorkflowProgram (outcome)

namespace WorkflowStore

variable {store : WorkflowStore} {version : VersionId}

/-- A stored link leads from one node of a version to another. -/
def LeadsWithin (store : WorkflowStore) (version : VersionId) (parent child : NodeId) : Prop :=
  store.InVersion version parent ∧ store.InVersion version child ∧
    ∃ link ∈ store.links.rows, link.parent = parent ∧ link.child = child

/-- The links over the nodes of a version close no cycle. -/
def AcyclicWithin (store : WorkflowStore) (version : VersionId) : Prop :=
  ∀ id, ¬ Relation.TransGen (store.LeadsWithin version) id id

theorem LeadsWithin.leadsTo {parent child : NodeId}
    (leads : store.LeadsWithin version parent child) : store.LeadsTo parent child :=
  ⟨leads.1.isSome_node?, leads.2.1.isSome_node?, leads.2.2⟩

theorem AcyclicWithin.of_rising
    (rising : ∀ link ∈ store.links.rows, link.parent.raw < link.child.raw) :
    store.AcyclicWithin version := by
  intro id cycle
  have included : store.LeadsWithin version ≤ store.LeadsTo :=
    fun _ _ leads => leads.leadsTo
  exact not_onCycle_of_rising rising id (Relation.TransGen.mono included id id cycle)

namespace Consistent

theorem inVersion_child (consistent : store.Consistent) {link : Link}
    (listed : link ∈ store.links.rows) (parentIn : store.InVersion version link.parent) :
    store.InVersion version link.child := by
  rcases consistent.joined link listed with ⟨other, parentOther, childOther⟩
  rw [parentIn.unique parentOther]
  exact childOther

theorem inVersion_parent (consistent : store.Consistent) {link : Link}
    (listed : link ∈ store.links.rows) (childIn : store.InVersion version link.child) :
    store.InVersion version link.parent := by
  rcases consistent.joined link listed with ⟨other, parentOther, childOther⟩
  rw [childIn.unique childOther]
  exact parentOther

/-- A link out of a node of a version stays in the version. -/
theorem leadsWithin (consistent : store.Consistent) {parent child : NodeId}
    (parentIn : store.InVersion version parent) (leads : store.LeadsTo parent child) :
    store.LeadsWithin version parent child := by
  rcases leads with ⟨_, _, link, listed, rfl, rfl⟩
  exact ⟨parentIn, consistent.inVersion_child listed parentIn, link, listed, rfl, rfl⟩

theorem inVersion_of_reaches (consistent : store.Consistent) {start id : NodeId}
    (startIn : store.InVersion version start) (path : store.Reaches start id) :
    store.InVersion version id := by
  induction path with
  | refl => exact startIn
  | tail _ last ih => exact (consistent.leadsWithin ih last).2.1

theorem transGen_leadsWithin (consistent : store.Consistent) {start id : NodeId}
    (startIn : store.InVersion version start)
    (path : Relation.TransGen store.LeadsTo start id) :
    Relation.TransGen (store.LeadsWithin version) start id := by
  induction path with
  | single leads => exact Relation.TransGen.single (consistent.leadsWithin startIn leads)
  | tail before last ih =>
    have here := consistent.inVersion_of_reaches startIn before.to_reflTransGen
    exact ih.tail (consistent.leadsWithin here last)

/-- What the roots of a version reach belongs to the version. -/
theorem inVersion_of_reachedFrom (consistent : store.Consistent) {id : NodeId}
    (reached : store.ReachedFrom (store.IsRoot version) id) : store.InVersion version id := by
  rcases reached with ⟨root, ⟨member, owned, _⟩, path⟩
  exact consistent.inVersion_of_reaches ⟨root, member, rfl, owned⟩ path

end Consistent

theorem finite_inVersion (store : WorkflowStore) (version : VersionId) :
    Finite { id // store.InVersion version id } := by
  have listed : { id | store.InVersion version id } ⊆
      { id | id ∈ store.nodes.rows.map Node.id } := by
    rintro id ⟨node, member, named, _⟩
    exact named ▸ List.mem_map_of_mem member
  exact ((List.finite_toSet _).subset listed).to_subtype

/-- Going back along links inside a version without cycles comes to an end. -/
theorem AcyclicWithin.wellFounded (acyclic : store.AcyclicWithin version) :
    WellFounded (fun first second : { id // store.InVersion version id } =>
      Relation.TransGen (store.LeadsWithin version) first.1 second.1) := by
  have finite := store.finite_inVersion version
  have transitive : IsTrans { id // store.InVersion version id } (fun first second =>
      Relation.TransGen (store.LeadsWithin version) first.1 second.1) :=
    ⟨fun _ _ _ before behind => before.trans behind⟩
  have irreflexive : Std.Irrefl (fun first second : { id // store.InVersion version id } =>
      Relation.TransGen (store.LeadsWithin version) first.1 second.1) :=
    ⟨fun id cycle => acyclic id.1 cycle⟩
  exact Finite.wellFounded_of_trans_of_irrefl _

/-- Every node of a version without cycles is reached from a root of the version. -/
theorem AcyclicWithin.reachedFrom (acyclic : store.AcyclicWithin version)
    (consistent : store.Consistent) {id : NodeId} (stored : store.InVersion version id) :
    store.ReachedFrom (store.IsRoot version) id := by
  have back : ∀ here : { id // store.InVersion version id },
      store.ReachedFrom (store.IsRoot version) here.1 := by
    intro here
    induction here using acyclic.wellFounded.induction with
    | _ here ih =>
      rcases here with ⟨other, inside⟩
      by_cases entered : ∃ link ∈ store.links.rows, link.child = other
      · rcases entered with ⟨link, listed, rfl⟩
        have parentIn := consistent.inVersion_parent listed inside
        have leads : store.LeadsWithin version link.parent link.child :=
          ⟨parentIn, inside, link, listed, rfl, rfl⟩
        exact (ih ⟨link.parent, parentIn⟩ (Relation.TransGen.single leads)).step leads.leadsTo
      · rcases inside with ⟨node, member, rfl, owned⟩
        have noLink : ∀ link ∈ store.links.rows, link.child ≠ node.id :=
          fun link listed same => entered ⟨link, listed, same⟩
        exact ReachedFrom.root ⟨member, owned, noLink⟩
  exact back ⟨id, stored⟩

theorem AcyclicWithin.reachedFrom_iff (acyclic : store.AcyclicWithin version)
    (consistent : store.Consistent) {id : NodeId} :
    store.ReachedFrom (store.IsRoot version) id ↔ store.InVersion version id :=
  ⟨consistent.inVersion_of_reachedFrom, acyclic.reachedFrom consistent⟩

end WorkflowStore

namespace WorkflowTree

variable {store : WorkflowStore} {version : VersionId}

/-- The graph that consists of a version: its nodes, and the links that leave them. -/
structure HoldsVersion (store : WorkflowStore) (version : VersionId) (tree : WorkflowTree) :
    Prop where
  nodes : ∀ node, node ∈ tree.nodes ↔ node ∈ store.nodes.rows ∧ node.versionId = version
  nodesOnce : (tree.nodes.map Node.id).Nodup
  links : ∀ link, link ∈ tree.edges.map TreeEdge.link ↔
    link ∈ store.links.rows ∧ store.InVersion version link.parent
  linksOnce : (tree.edges.map TreeEdge.link).Nodup

theorem holdsVersion_of_exactGraph (consistent : store.Consistent)
    (acyclic : store.AcyclicWithin version) {tree : WorkflowTree}
    (graph : ExactGraph store (store.IsRoot version) tree) : HoldsVersion store version tree where
  nodes node := by
    rw [graph.nodes, acyclic.reachedFrom_iff consistent]
    constructor
    · rintro ⟨member, held, heldMember, named, owned⟩
      rw [Table.eq_of_mem_of_idOf member heldMember named.symm]
      exact ⟨heldMember, owned⟩
    · rintro ⟨member, owned⟩
      exact ⟨member, node, member, rfl, owned⟩
  nodesOnce := graph.nodesOnce
  links link := by
    rw [graph.links, acyclic.reachedFrom_iff consistent]
    constructor
    · rintro ⟨listed, parentIn, _⟩
      exact ⟨listed, parentIn⟩
    · rintro ⟨listed, parentIn⟩
      exact ⟨listed, parentIn, (consistent.inVersion_child listed parentIn).isSome_node?⟩
  linksOnce := graph.linksOnce

/-- No cycle is reached from the roots of a version that has none itself. -/
theorem not_reached_cycle (consistent : store.Consistent)
    (acyclic : store.AcyclicWithin version) :
    ¬ ∃ id, store.ReachedFrom (store.IsRoot version) id ∧ store.OnCycle id := by
  rintro ⟨id, reached, cycle⟩
  have inside := consistent.inVersion_of_reachedFrom reached
  exact acyclic id (consistent.transGen_leadsWithin inside cycle)

/-- After any history of edits, a version whose links close no cycle is expanded to a graph that
holds all of it and nothing else. -/
theorem edited_version_expands_whole (edits : List (Timestamp × WorkflowEdit))
    (version : VersionId)
    (acyclic : (WorkflowEdit.applyAll .empty edits).AcyclicWithin version) :
    let store := WorkflowEdit.applyAll .empty edits
    ∃ tree, outcome (ofVersion store.nodeIds version) store = (.ok tree, store) ∧
      HoldsVersion store version tree := by
  intro store
  have consistent : store.Consistent := WorkflowStore.Consistent.applyAll edits
  rcases ofVersion_answers store version with ⟨answer, runs, finds, graph⟩
  rcases finds.ok_iff.mpr (not_reached_cycle consistent acyclic) with ⟨tree, yields⟩
  refine ⟨tree, ?_, holdsVersion_of_exactGraph consistent acyclic (graph tree yields)⟩
  rw [runs _ store.listedIn_nodeIds, yields]

/-- A history that makes a diamond in version 2, next to a version 3 of the same workflow, and
deletes a node that was linked to it. -/
def diamondHistory : List (Timestamp × WorkflowEdit) :=
  WorkflowEdit.atOnce
    [.createNamed "fees", .cloneOrCreateVersion ⟨1⟩ 1 "first",
      .cloneOrCreateVersion ⟨1⟩ 2 "second", .addNode (.plain ⟨2⟩), .addNode (.plain ⟨2⟩),
      .addNode (.plain ⟨2⟩), .addNode (.plain ⟨2⟩), .addNode (.plain ⟨2⟩), .addNode (.plain ⟨3⟩),
      .addLink (.plain ⟨2⟩ ⟨4⟩ ⟨5⟩), .addLink (.plain ⟨2⟩ ⟨4⟩ ⟨6⟩), .addLink (.plain ⟨2⟩ ⟨5⟩ ⟨7⟩),
      .addLink (.plain ⟨2⟩ ⟨6⟩ ⟨7⟩), .addLink (.plain ⟨2⟩ ⟨7⟩ ⟨8⟩), .addLink (.plain ⟨2⟩ ⟨8⟩ ⟨9⟩),
      .deleteNode ⟨8⟩]

theorem edited_version_expands_whole_diamond :
    (WorkflowEdit.applyAll .empty diamondHistory).AcyclicWithin ⟨2⟩ ∧
      let store := WorkflowEdit.applyAll .empty diamondHistory
      store.links.rows.length = 4 ∧
        ∃ tree, outcome (ofVersion store.nodeIds ⟨2⟩) store = (.ok tree, store) ∧
          HoldsVersion store ⟨2⟩ tree := by
  have rising : ∀ link ∈ (WorkflowEdit.applyAll .empty diamondHistory).links.rows,
      link.parent.raw < link.child.raw := by decide +kernel
  have acyclic : (WorkflowEdit.applyAll .empty diamondHistory).AcyclicWithin ⟨2⟩ :=
    .of_rising rising
  exact ⟨acyclic, by decide +kernel, edited_version_expands_whole diamondHistory ⟨2⟩ acyclic⟩

end WorkflowTree

end NodeSteward
