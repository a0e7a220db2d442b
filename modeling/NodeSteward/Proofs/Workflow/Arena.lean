import Mathlib.Data.List.Nodup
import NodeSteward.Workflow.Tree

/-!
# Arenas in which every node has one place

The arena of a graph is sound when looking up a node and reading a place are inverse to each other,
when every edge stands between the places of the two ends of its own link, and when no link stands
on two edges.  A sound arena holds no second copy of a node, so an edge cannot be attached to one.
The operations that build a graph keep arenas sound.
-/

namespace NodeSteward

namespace WorkflowTree

variable {tree : WorkflowTree}

/-- The rules of an arena.  They do not mention the store from which the graph was read. -/
structure Sound (tree : WorkflowTree) : Prop where
  /-- The place of a node is where the node stands. -/
  placed : ∀ id place,
    tree.place? id = some place ↔ ∃ node, tree.record? place = some node ∧ node.id = id
  /-- An edge joins the places of the ends of its link. -/
  ends : ∀ edge ∈ tree.edges,
    tree.place? edge.link.parent = some edge.parent ∧ tree.place? edge.link.child = some edge.child
  linksOnce : (tree.edges.map TreeEdge.link).Nodup

theorem lt_nextPlace {place : Place} {node : Node} (found : tree.record? place = some node) :
    place < tree.nextPlace :=
  (List.getElem?_eq_some_iff.mp found).1

theorem record?_addNode (tree : WorkflowTree) (node : Node) (place : Place) :
    (tree.addNode node).record? place =
      if place = tree.nextPlace then some node else tree.record? place := by
  show (tree.nodes ++ [node])[place]? = if place = tree.nodes.length then _ else tree.nodes[place]?
  by_cases new : place = tree.nodes.length
  · rw [if_pos new, new]
    exact List.getElem?_concat_length
  · rw [if_neg new]
    rcases Nat.lt_or_gt_of_ne new with before | behind
    · exact List.getElem?_append_left before
    · rw [List.getElem?_eq_none (Nat.le_of_lt behind)]
      refine List.getElem?_eq_none ?_
      rw [List.length_append]
      exact behind

theorem place?_addNode (tree : WorkflowTree) (node : Node) (id : NodeId) :
    (tree.addNode node).place? id =
      if id = node.id then some tree.nextPlace else tree.place? id :=
  NodeMap.get?_insert _ _ _ _

/-- Entering a node that has no place yet leaves all other places as they are. -/
theorem place?_addNode_of_some {node : Node} {id : NodeId} {place : Place}
    (fresh : tree.place? node.id = none) (found : tree.place? id = some place) :
    (tree.addNode node).place? id = some place := by
  have different : id ≠ node.id := by
    intro same
    rw [same, fresh] at found
    cases found
  rw [place?_addNode, if_neg different, found]

theorem addEdgeTo_of_place {child : NodeId} {place : Place} (found : tree.place? child = some place)
    (link : Link) (parent : Place) :
    tree.addEdgeTo link parent child = tree.addEdge link parent place := by
  rw [addEdgeTo, found]

namespace Sound

theorem empty : WorkflowTree.empty.Sound where
  placed id place := by simp [WorkflowTree.empty, place?, record?]
  ends edge member := by cases member
  linksOnce := List.nodup_nil

theorem lt_nextPlace (sound : tree.Sound) {id : NodeId} {place : Place}
    (found : tree.place? id = some place) : place < tree.nextPlace := by
  rcases (sound.placed id place).mp found with ⟨node, stands, _⟩
  exact WorkflowTree.lt_nextPlace stands

/-- A node is held exactly when it has a place. -/
theorem isSome_place?_iff (sound : tree.Sound) {id : NodeId} :
    (tree.place? id).isSome ↔ ∃ node ∈ tree.nodes, node.id = id := by
  constructor
  · intro held
    rcases Option.isSome_iff_exists.mp held with ⟨place, found⟩
    rcases (sound.placed id place).mp found with ⟨node, stands, named⟩
    exact ⟨node, List.mem_of_getElem? stands, named⟩
  · rintro ⟨node, member, named⟩
    rcases List.mem_iff_getElem?.mp member with ⟨place, stands⟩
    rw [(sound.placed id place).mpr ⟨node, stands, named⟩]
    rfl

/-- No node stands at two places. -/
theorem nodesOnce (sound : tree.Sound) : (tree.nodes.map Node.id).Nodup := by
  refine List.nodup_iff_getElem?_ne_getElem?.mpr ?_
  intro first second before inside same
  have firstInside : first < (tree.nodes.map Node.id).length := Nat.lt_trans before inside
  rw [List.length_map] at firstInside inside
  have firstStands : tree.record? first = some tree.nodes[first] :=
    List.getElem?_eq_getElem firstInside
  have secondStands : tree.record? second = some tree.nodes[second] :=
    List.getElem?_eq_getElem inside
  have named : tree.nodes[second].id = tree.nodes[first].id := by
    simpa [firstInside, inside] using same.symm
  have one := (sound.placed _ first).mpr ⟨_, firstStands, rfl⟩
  have other := (sound.placed _ second).mpr ⟨_, secondStands, named⟩
  rw [one] at other
  exact Nat.ne_of_lt before (Option.some.inj other)

theorem addNode (sound : tree.Sound) {node : Node} (fresh : tree.place? node.id = none) :
    (tree.addNode node).Sound where
  placed id place := by
    rw [place?_addNode, record?_addNode]
    by_cases same : id = node.id
    · subst same
      rw [if_pos rfl]
      constructor
      · intro new
        rw [if_pos (Option.some.inj new).symm]
        exact ⟨node, rfl, rfl⟩
      · rintro ⟨held, stands, named⟩
        by_cases new : place = tree.nextPlace
        · rw [new]
        · rw [if_neg new] at stands
          rw [(sound.placed node.id place).mpr ⟨held, stands, named⟩] at fresh
          cases fresh
    · rw [if_neg same, sound.placed]
      by_cases new : place = tree.nextPlace
      · rw [if_pos new]
        constructor
        · rintro ⟨held, stands, _⟩
          exact absurd new (Nat.ne_of_lt (WorkflowTree.lt_nextPlace stands))
        · rintro ⟨held, stands, named⟩
          rw [← Option.some.inj stands] at named
          exact absurd named.symm same
      · rw [if_neg new]
  ends edge member := by
    rcases sound.ends edge member with ⟨parent, child⟩
    exact ⟨place?_addNode_of_some fresh parent, place?_addNode_of_some fresh child⟩
  linksOnce := sound.linksOnce

theorem addEdge (sound : tree.Sound) {link : Link} {parent child : Place}
    (parentPlaced : tree.place? link.parent = some parent)
    (childPlaced : tree.place? link.child = some child)
    (new : link ∉ tree.edges.map TreeEdge.link) : (tree.addEdge link parent child).Sound where
  placed := sound.placed
  ends edge member := by
    rcases List.mem_append.mp member with held | added
    · exact sound.ends edge held
    · rw [List.mem_singleton.mp added]
      exact ⟨parentPlaced, childPlaced⟩
  linksOnce := by
    show ((tree.edges ++ [TreeEdge.mk link parent child]).map TreeEdge.link).Nodup
    rw [List.map_append, List.map_singleton, List.nodup_append]
    refine ⟨sound.linksOnce, List.nodup_singleton _, ?_⟩
    intro held heldMember other otherMember same
    rw [same, List.mem_singleton.mp otherMember] at heldMember
    exact new heldMember

theorem addRoot (sound : tree.Sound) (root : Place) : (tree.addRoot root).Sound where
  placed := sound.placed
  ends := sound.ends
  linksOnce := sound.linksOnce

end Sound

end WorkflowTree

end NodeSteward
