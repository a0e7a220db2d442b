import NodeSteward.Proofs.Workflow.Discovery
import NodeSteward.Proofs.Workflow.Expansion

/-!
# Two ways to the neighbours of a node

The neighbours of a node can be read off an expanded graph, whose edges are sorted when they are
asked for, or joined by the store, which sorts its rows.  For every node that a graph holds the two
agree.  The children are the same in full: a graph that holds a node holds all that it leads to.  Of
the parents a graph shows those that it holds, because a link into a held node can come from a node
that no root reaches.

Both sides of a node are treated at once.  On either side a link has a near and a far end and a
slot at the near one, and the order by slots leaves no choice between two links of a store.
-/

namespace NodeSteward

open WorkflowProgram (outcome)

/-- The sides on which a node has neighbours. -/
inductive Side where
  | above
  | below
  deriving DecidableEq, Repr

namespace Side

/-- The end of a link at the node whose neighbours are looked at. -/
def near : Side → Link → NodeId
  | above, link => link.child
  | below, link => link.parent

/-- The end of a link at the neighbour. -/
def far : Side → Link → NodeId
  | above, link => link.parent
  | below, link => link.child

/-- The place of the near end of an edge. -/
def nearPlace : Side → TreeEdge → Place
  | above, edge => edge.child
  | below, edge => edge.parent

/-- The place of the far end of an edge. -/
def farPlace : Side → TreeEdge → Place
  | above, edge => edge.parent
  | below, edge => edge.child

/-- The slot of a link at its near end. -/
def slot : Side → Link → Int32
  | above, link => link.input
  | below, link => link.output

/-- The order of links by their slot, and by their identifier where that is the same. -/
def order (side : Side) (first second : Link) : Bool :=
  side.slot first < side.slot second ||
    (side.slot first == side.slot second && first.id.raw ≤ second.id.raw)

variable {side : Side} {first second third : Link}

theorem order_iff :
    side.order first second = true ↔
      (side.slot first).toInt < (side.slot second).toInt ∨
        ((side.slot first).toInt = (side.slot second).toInt ∧ first.id.raw ≤ second.id.raw) := by
  simp [order, Int32.lt_iff_toInt_lt, Int32.toInt_inj]

theorem order_trans (before : side.order first second = true)
    (behind : side.order second third = true) : side.order first third = true := by
  rw [order_iff] at *
  omega

theorem order_total (side : Side) (first second : Link) :
    (side.order first second || side.order second first) = true := by
  rw [Bool.or_eq_true, order_iff, order_iff]
  omega

/-- Only links of one identifier come both before and behind each other. -/
theorem order_antisymm (before : side.order first second = true)
    (behind : side.order second first = true) : first.id = second.id := by
  rw [order_iff] at *
  apply Id.ext_raw
  omega

/-- Whatever carries links is sorted by them. -/
theorem pairwise_mergeSort {α : Type} (side : Side) (link : α → Link) (items : List α) :
    (items.mergeSort (fun first second => side.order (link first) (link second))).Pairwise
      (fun first second => side.order (link first) (link second) = true) := by
  have trans : ∀ first second third : α, side.order (link first) (link second) = true →
      side.order (link second) (link third) = true → side.order (link first) (link third) = true :=
    fun _ _ _ before behind => order_trans before behind
  have total : ∀ first second : α,
      (side.order (link first) (link second) || side.order (link second) (link first)) = true :=
    fun first second => side.order_total (link first) (link second)
  exact List.pairwise_mergeSort trans total items

/-- Links in order are given by which they are. -/
theorem eq_of_order {links others : List Link}
    (sorted : links.Pairwise (fun first second => side.order first second = true))
    (sortedToo : others.Pairwise (fun first second => side.order first second = true))
    (nodup : links.Nodup) (nodupToo : others.Nodup)
    (byId : ∀ first ∈ links, ∀ second ∈ others, first.id = second.id → first = second)
    (same : ∀ link, link ∈ links ↔ link ∈ others) : links = others := by
  refine List.Perm.eq_of_pairwise ?_ sorted sortedToo
    ((List.perm_ext_iff_of_nodup nodup nodupToo).mpr same)
  intro first second listed listedToo before behind
  exact byId first listed second listedToo (order_antisymm before behind)

end Side

namespace WorkflowStore

variable {store : WorkflowStore} {side : Side} {id : NodeId}

/-- The neighbours of a node on a side as the store joins them. -/
def neighbours (store : WorkflowStore) : Side → NodeId → List LinkedNode
  | .above, id => store.parentLinks id
  | .below, id => store.childLinks id

theorem neighbours_eq (store : WorkflowStore) (side : Side) (id : NodeId) :
    store.neighbours side id =
      (store.joined fun link =>
        if side.near link = id then some (side.far link) else none).mergeSort
          (fun first second => side.order first.link second.link) := by
  cases side <;> rfl

theorem mem_neighbours {linked : LinkedNode} :
    linked ∈ store.neighbours side id ↔
      linked.link ∈ store.links.rows ∧ side.near linked.link = id ∧
        store.node? (side.far linked.link) = some linked.node := by
  rw [neighbours_eq, List.mem_mergeSort, mem_joined]
  by_cases touches : side.near linked.link = id
  · simp [touches]
  · simp [touches]

theorem id_of_mem_neighbours {linked : LinkedNode} (listed : linked ∈ store.neighbours side id) :
    linked.node.id = side.far linked.link :=
  (node?_eq_some_iff.mp (mem_neighbours.mp listed).2.2).2

theorem nodup_neighbours (store : WorkflowStore) (side : Side) (id : NodeId) :
    ((store.neighbours side id).map LinkedNode.link).Nodup := by
  rw [neighbours_eq, ((List.mergeSort_perm _ _).map LinkedNode.link).nodup_iff, map_link_joined]
  exact store.links.nodup_rows.filter _

theorem sorted_neighbours (store : WorkflowStore) (side : Side) (id : NodeId) :
    (store.neighbours side id).Pairwise
      (fun first second => side.order first.link second.link = true) := by
  rw [neighbours_eq]
  exact side.pairwise_mergeSort LinkedNode.link _

end WorkflowStore

/-! ## Neighbours in a graph -/

namespace WorkflowTree

variable {tree : WorkflowTree} {side : Side} {place : Place}

/-- The edges that touch a place on a side, in the order of the walk. -/
def touching (tree : WorkflowTree) : Side → Place → List TreeNeighbour
  | .above, place => tree.incoming place
  | .below, place => tree.outgoing place

/-- The neighbours of a place on a side by their slots. -/
def neighbours (tree : WorkflowTree) : Side → Place → List TreeNeighbour
  | .above, place => tree.parents place
  | .below, place => tree.children place

/-- The neighbour on a side that is reached through a link. -/
def byLink? (tree : WorkflowTree) : Side → Place → LinkId → Option Place
  | .above, place, id => tree.parentByLink? place id
  | .below, place, id => tree.childByLink? place id

theorem touching_eq (tree : WorkflowTree) (side : Side) (place : Place) :
    tree.touching side place =
      tree.edges.filterMap (fun edge =>
        if side.nearPlace edge = place then some ⟨edge.link, side.farPlace edge⟩ else none) := by
  cases side <;> rfl

theorem neighbours_eq (tree : WorkflowTree) (side : Side) (place : Place) :
    tree.neighbours side place =
      (tree.touching side place).mergeSort
        (fun first second => side.order first.link second.link) := by
  cases side <;> rfl

theorem byLink?_eq (tree : WorkflowTree) (side : Side) (place : Place) (id : LinkId) :
    tree.byLink? side place id =
      ((tree.touching side place).find? (fun neighbour => neighbour.link.id = id)).map
        TreeNeighbour.place := by
  cases side <;> rfl

/-- A neighbour with its node as it stands in the arena. -/
def linked? (tree : WorkflowTree) (neighbour : TreeNeighbour) : Option LinkedNode :=
  (tree.record? neighbour.place).map (fun node => ⟨neighbour.link, node⟩)

/-- The neighbour is one of the held nodes. -/
def holds (tree : WorkflowTree) (linked : LinkedNode) : Bool :=
  (tree.place? linked.node.id).isSome

theorem sorted_neighbours (tree : WorkflowTree) (side : Side) (place : Place) :
    (tree.neighbours side place).Pairwise
      (fun first second => side.order first.link second.link = true) := by
  rw [neighbours_eq]
  exact side.pairwise_mergeSort TreeNeighbour.link _

end WorkflowTree

namespace ExactGraph

variable {store : WorkflowStore} {roots : Node → Prop} {tree : WorkflowTree} {side : Side}
  {place : Place} {node : Node}

/-- A held node is stored. -/
theorem stored (graph : ExactGraph store roots tree) (stands : tree.record? place = some node) :
    store.node? node.id = some node :=
  WorkflowStore.node?_eq_some_iff.mpr
    ⟨((graph.nodes node).mp (List.mem_of_getElem? stands)).1, rfl⟩

/-- Both ends of an edge are found at their places. -/
theorem ends_side (graph : ExactGraph store roots tree) (side : Side) {edge : TreeEdge}
    (member : edge ∈ tree.edges) :
    tree.place? (side.near edge.link) = some (side.nearPlace edge) ∧
      tree.place? (side.far edge.link) = some (side.farPlace edge) := by
  cases side with
  | above => exact (graph.ends edge member).symm
  | below => exact graph.ends edge member

/-- A place is touched by the followed links whose near end is found there. -/
theorem mem_touching (graph : ExactGraph store roots tree) {neighbour : TreeNeighbour} :
    neighbour ∈ tree.touching side place ↔
      neighbour.link ∈ tree.edges.map TreeEdge.link ∧
        tree.place? (side.near neighbour.link) = some place ∧
        tree.place? (side.far neighbour.link) = some neighbour.place := by
  rw [WorkflowTree.touching_eq, List.mem_filterMap, List.mem_map]
  constructor
  · rintro ⟨edge, member, same⟩
    split at same
    · rename_i here
      subst here
      cases same
      exact ⟨⟨edge, member, rfl⟩, graph.ends_side side member⟩
    · cases same
  · rintro ⟨⟨edge, member, same⟩, near, far⟩
    have ends := graph.ends_side side member
    rw [same] at ends
    have here : side.nearPlace edge = place := Option.some.inj (ends.1.symm.trans near)
    have there : side.farPlace edge = neighbour.place := Option.some.inj (ends.2.symm.trans far)
    exact ⟨edge, member, by rw [if_pos here, same, there]⟩

/-- What has a place is stored and reached. -/
theorem reached_of_place (graph : ExactGraph store roots tree) {id : NodeId}
    (held : (tree.place? id).isSome) :
    (store.node? id).isSome ∧ store.ReachedFrom roots id := by
  rcases Option.isSome_iff_exists.mp held with ⟨place, found⟩
  rcases (graph.placed id place).mp found with ⟨node, stands, rfl⟩
  rcases (graph.nodes node).mp (List.mem_of_getElem? stands) with ⟨member, reached⟩
  exact ⟨WorkflowStore.isSome_node?_iff.mpr ⟨node, member, rfl⟩, reached⟩

/-- The followed links are the stored ones with both ends held. -/
theorem followed_iff (graph : ExactGraph store roots tree) (side : Side) {link : Link} :
    link ∈ tree.edges.map TreeEdge.link ↔
      link ∈ store.links.rows ∧ (tree.place? (side.near link)).isSome ∧
        (tree.place? (side.far link)).isSome := by
  constructor
  · intro followed
    rcases List.mem_map.mp followed with ⟨edge, member, rfl⟩
    rcases graph.ends_side side member with ⟨near, far⟩
    rw [near, far]
    exact ⟨((graph.links _).mp followed).1, rfl, rfl⟩
  · rintro ⟨listed, near, far⟩
    rw [graph.links]
    cases side with
    | above => exact ⟨listed, (graph.reached_of_place far).2, (graph.reached_of_place near).1⟩
    | below => exact ⟨listed, (graph.reached_of_place near).2, (graph.reached_of_place far).1⟩

/-- No link stands twice among the neighbours of a place. -/
theorem nodup_touching (graph : ExactGraph store roots tree) (side : Side) (place : Place) :
    ((tree.touching side place).map TreeNeighbour.link).Nodup := by
  have once : tree.edges.Pairwise (fun first second => first.link ≠ second.link) :=
    List.pairwise_map.mp graph.linksOnce
  rw [WorkflowTree.touching_eq]
  refine List.pairwise_map.mpr (once.filterMap _ ?_)
  intro first second different one oneOf other otherOf
  split at oneOf
  · split at otherOf
    · cases oneOf
      cases otherOf
      exact different
    · cases otherOf
  · cases oneOf

variable (graph : ExactGraph store roots tree) (stands : tree.record? place = some node)

include graph stands

/-- The neighbours of a held node are connected with it by the links that the store finds to the
neighbours that are held, in the same order. -/
theorem map_link_neighbours (side : Side) :
    (tree.neighbours side place).map TreeNeighbour.link =
      ((store.neighbours side node.id).filter tree.holds).map LinkedNode.link := by
  have here : ∀ {id}, tree.place? id = some place ↔ id = node.id := by
    intro id
    rw [graph.placed, stands]
    simp [eq_comm]
  apply side.eq_of_order
  case sorted => exact List.pairwise_map.mpr (tree.sorted_neighbours side place)
  case sortedToo =>
    exact List.pairwise_map.mpr ((store.sorted_neighbours side node.id).filter _)
  case nodup =>
    rw [WorkflowTree.neighbours_eq, ((List.mergeSort_perm _ _).map _).nodup_iff]
    exact graph.nodup_touching side place
  case nodupToo =>
    exact (store.nodup_neighbours side node.id).sublist (List.filter_sublist.map _)
  case byId =>
    intro first listed second listedToo same
    rcases List.mem_map.mp listed with ⟨neighbour, member, rfl⟩
    rcases List.mem_map.mp listedToo with ⟨linked, memberToo, rfl⟩
    rw [WorkflowTree.neighbours_eq, List.mem_mergeSort, graph.mem_touching] at member
    have stored := ((graph.followed_iff side).mp member.1).1
    have storedToo := (WorkflowStore.mem_neighbours.mp (List.mem_filter.mp memberToo).1).1
    exact Table.eq_of_mem_of_idOf stored storedToo same
  case same =>
    intro link
    rw [List.mem_map, List.mem_map]
    constructor
    · rintro ⟨neighbour, member, rfl⟩
      rw [WorkflowTree.neighbours_eq, List.mem_mergeSort, graph.mem_touching] at member
      rcases member with ⟨followed, near, far⟩
      rcases (graph.followed_iff side).mp followed with ⟨listed, _, held⟩
      rcases Option.isSome_iff_exists.mp (graph.reached_of_place held).1 with ⟨other, found⟩
      have named := (WorkflowStore.node?_eq_some_iff.mp found).2
      refine ⟨⟨neighbour.link, other⟩, List.mem_filter.mpr ⟨?_, ?_⟩, rfl⟩
      · exact WorkflowStore.mem_neighbours.mpr ⟨listed, here.mp near, found⟩
      · rw [WorkflowTree.holds, named]
        exact held
    · rintro ⟨linked, member, rfl⟩
      rcases List.mem_filter.mp member with ⟨joins, held⟩
      rw [WorkflowTree.holds, WorkflowStore.id_of_mem_neighbours joins] at held
      rcases WorkflowStore.mem_neighbours.mp joins with ⟨listed, near, _⟩
      have near := here.mpr near
      rcases Option.isSome_iff_exists.mp held with ⟨there, far⟩
      refine ⟨⟨linked.link, there⟩, ?_, rfl⟩
      rw [WorkflowTree.neighbours_eq, List.mem_mergeSort, graph.mem_touching]
      exact ⟨(graph.followed_iff side).mpr ⟨listed, by rw [near]; rfl, held⟩, near, far⟩

/-- They are the same nodes too, because a link tells the nodes that it connects. -/
theorem map_linked?_neighbours (side : Side) :
    (tree.neighbours side place).map tree.linked? =
      ((store.neighbours side node.id).filter tree.holds).map some := by
  let joined : Link → Option LinkedNode := fun link =>
    (store.node? (side.far link)).map (fun node => ⟨link, node⟩)
  have shown : ∀ neighbour ∈ tree.neighbours side place,
      tree.linked? neighbour = joined neighbour.link := by
    intro neighbour member
    rw [WorkflowTree.neighbours_eq, List.mem_mergeSort, graph.mem_touching] at member
    rcases (graph.placed _ _).mp member.2.2 with ⟨other, otherStands, named⟩
    have stored := graph.stored otherStands
    rw [named] at stored
    rw [WorkflowTree.linked?, otherStands]
    dsimp only [joined]
    rw [stored]
  have found : ∀ linked ∈ (store.neighbours side node.id).filter tree.holds,
      some linked = joined linked.link := by
    intro linked member
    have joins := WorkflowStore.mem_neighbours.mp (List.mem_filter.mp member).1
    dsimp only [joined]
    rw [joins.2.2]
    rfl
  calc
    (tree.neighbours side place).map tree.linked?
        = ((tree.neighbours side place).map TreeNeighbour.link).map joined := by
      rw [List.map_map]
      exact List.map_congr_left shown
    _ = (((store.neighbours side node.id).filter tree.holds).map LinkedNode.link).map joined := by
      rw [graph.map_link_neighbours stands side]
    _ = ((store.neighbours side node.id).filter tree.holds).map some := by
      rw [List.map_map]
      exact List.map_congr_left fun linked member => (found linked member).symm

/-- All that a held node leads to is held. -/
theorem filter_holds_below :
    (store.neighbours .below node.id).filter tree.holds = store.neighbours .below node.id := by
  refine List.filter_eq_self.mpr fun linked listed => ?_
  rcases WorkflowStore.mem_neighbours.mp listed with ⟨member, near, found⟩
  have held : (tree.place? node.id).isSome := by
    rw [(graph.placed _ place).mpr ⟨node, stands, rfl⟩]
    rfl
  have followed : linked.link ∈ tree.edges.map TreeEdge.link := by
    refine (graph.links _).mpr ⟨member, ?_, ?_⟩
    · rw [show linked.link.parent = node.id from near]
      exact (graph.reached_of_place held).2
    · rw [show store.node? linked.link.child = some linked.node from found]
      rfl
  rw [WorkflowTree.holds, WorkflowStore.id_of_mem_neighbours listed]
  exact ((graph.followed_iff .below).mp followed).2.2

end ExactGraph

/-- A look-up where each match is the only one does not depend on the order. -/
theorem find?_eq_of_perm {α : Type} {matching : α → Bool} {items others : List α}
    (perm : items.Perm others)
    (unique : ∀ first ∈ items, ∀ second ∈ items, matching first = true →
      matching second = true → first = second) :
    items.find? matching = others.find? matching := by
  cases found : others.find? matching with
  | none =>
    rw [List.find?_eq_none] at found ⊢
    exact fun item member => found item (perm.mem_iff.mp member)
  | some item =>
    have member := perm.mem_iff.mpr (List.mem_of_find?_eq_some found)
    have holds := List.find?_some found
    cases foundToo : items.find? matching with
    | none => exact absurd holds (List.find?_eq_none.mp foundToo item member)
    | some other =>
      rw [unique other (List.mem_of_find?_eq_some foundToo) item member
        (List.find?_some foundToo) holds]

/-- Look-ups in two lists that show the same, one through a partial reading. -/
theorem map_find?_of_map_eq {α β : Type} {reading : α → Option β} {matching : α → Bool}
    {matchingToo : β → Bool}
    (agree : ∀ item shown, reading item = some shown → matching item = matchingToo shown)
    {items : List α} {others : List β} (same : items.map reading = others.map some) :
    (items.find? matching).map reading = (others.find? matchingToo).map some := by
  induction items generalizing others with
  | nil =>
    cases others with
    | nil => rfl
    | cons => cases same
  | cons item items ih =>
    cases others with
    | nil => cases same
    | cons shown others =>
      rw [List.map_cons, List.map_cons, List.cons.injEq] at same
      rw [List.find?_cons, List.find?_cons, agree item shown same.1]
      cases matchingToo shown with
      | true => exact congrArg some same.1
      | false => exact ih same.2

namespace ExactGraph

variable {store : WorkflowStore} {roots : Node → Prop} {tree : WorkflowTree} {side : Side}
  {place : Place} {node : Node}

/-- Links of one identifier are one link, which touches a place once. -/
theorem eq_of_touching (graph : ExactGraph store roots tree) {first second : TreeNeighbour}
    (listed : first ∈ tree.touching side place) (listedToo : second ∈ tree.touching side place)
    (same : first.link.id = second.link.id) : first = second := by
  rw [graph.mem_touching] at listed listedToo
  have links : first.link = second.link :=
    Table.eq_of_mem_of_idOf ((graph.followed_iff side).mp listed.1).1
      ((graph.followed_iff side).mp listedToo.1).1 same
  have places := listed.2.2
  rw [links, listedToo.2.2, Option.some_inj] at places
  cases first
  cases second
  simp_all

/-- The neighbour on a side that is reached through a link. -/
theorem map_record?_byLink? (graph : ExactGraph store roots tree)
    (stands : tree.record? place = some node) (side : Side) (id : LinkId) :
    (tree.byLink? side place id).map tree.record? =
      (LinkedNode.byLink? ((store.neighbours side node.id).filter tree.holds) id).map some := by
  have unsorted : (tree.touching side place).find? (fun neighbour => neighbour.link.id = id) =
      (tree.neighbours side place).find? (fun neighbour => neighbour.link.id = id) := by
    rw [WorkflowTree.neighbours_eq]
    refine find?_eq_of_perm (List.mergeSort_perm _ _).symm ?_
    intro first listed second listedToo named namedToo
    exact graph.eq_of_touching listed listedToo
      ((of_decide_eq_true named).trans (of_decide_eq_true namedToo).symm)
  have agree : ∀ neighbour linked, tree.linked? neighbour = some linked →
      decide (neighbour.link.id = id) = decide (linked.link.id = id) := by
    intro neighbour linked shown
    rcases Option.map_eq_some_iff.mp shown with ⟨_, _, rfl⟩
    rfl
  have shown := map_find?_of_map_eq agree (graph.map_linked?_neighbours stands side)
  have nodes := congrArg (Option.map (Option.map LinkedNode.node)) shown
  rw [Option.map_map, Option.map_map] at nodes
  rw [WorkflowTree.byLink?_eq, unsorted, LinkedNode.byLink?, Option.map_map, Option.map_map]
  refine Eq.trans ?_ nodes
  congr 1
  funext neighbour
  simp only [Function.comp_apply, WorkflowTree.linked?, Option.map_map]
  cases tree.record? neighbour.place <;> rfl

end ExactGraph

/-- Links in the order of their identifiers. -/
def Link.byId (links : List Link) : List Link :=
  links.foldl (fun held link => link.insertById held) []

namespace Link

theorem ascending_byId (links : List Link) :
    (byId links).Pairwise (fun earlier later => earlier.id.raw < later.id.raw) := by
  have kept : ∀ held : List Link,
      held.Pairwise (fun earlier later => earlier.id.raw < later.id.raw) →
        (links.foldl (fun held link => link.insertById held) held).Pairwise
          (fun earlier later => earlier.id.raw < later.id.raw) := by
    induction links with
    | nil => exact fun held ascending => ascending
    | cons link links ih =>
      exact fun held ascending => ih _ (Table.ascending_insertRow link ascending)
  exact kept [] List.Pairwise.nil

/-- All links are there, if no two different ones have the same identifier. -/
theorem mem_byId {links : List Link}
    (unique : ∀ first ∈ links, ∀ second ∈ links, first.id = second.id → first = second)
    {link : Link} : link ∈ byId links ↔ link ∈ links := by
  induction links using List.reverseRecOn with
  | nil => rfl
  | append_singleton links last ih =>
    have fewer := ih fun first listed second listedToo =>
      unique first (List.mem_append_left _ listed) second (List.mem_append_left _ listedToo)
    have step : byId (links ++ [last]) = last.insertById (byId links) := by
      rw [byId, List.foldl_append]
      rfl
    rw [step, insertById, Table.mem_insertRow (ascending_byId links), fewer, List.mem_append,
      List.mem_singleton]
    constructor
    · rintro (same | ⟨listed, _⟩)
      · exact Or.inr same
      · exact Or.inl listed
    · rintro (listed | same)
      · by_cases sameId : link.id = last.id
        · exact Or.inl (unique link (List.mem_append_left _ listed) last
            (List.mem_append_right _ (List.mem_singleton_self last)) sameId)
        · exact Or.inr ⟨listed, sameId⟩
      · exact Or.inl same

/-- Which links are sorted decides the result, not how often and in which order they come. -/
theorem byId_congr {links others : List Link} (same : ∀ link, link ∈ links ↔ link ∈ others)
    (unique : ∀ first ∈ links, ∀ second ∈ links, first.id = second.id → first = second) :
    byId links = byId others := by
  have uniqueToo : ∀ first ∈ others, ∀ second ∈ others, first.id = second.id → first = second :=
    fun first listed second listedToo =>
      unique first ((same first).mpr listed) second ((same second).mpr listedToo)
  have nodup : ∀ links : List Link, (byId links).Nodup := by
    intro links
    refine (ascending_byId links).imp ?_
    rintro earlier later before rfl
    exact Int.lt_irrefl _ before
  refine List.Perm.eq_of_pairwise ?_ (ascending_byId links) (ascending_byId others)
    ((List.perm_ext_iff_of_nodup (nodup links) (nodup others)).mpr ?_)
  · intro first second _ _ before behind
    exact absurd before (Int.lt_asymm behind)
  · intro link
    rw [mem_byId unique, mem_byId uniqueToo, same]

end Link

/-! ## What a graph shows of a node -/

namespace NodeView

/-- The view with those parents that a graph holds. -/
def within (view : NodeView) (tree : WorkflowTree) : NodeView :=
  { view with parents := view.parents.filter tree.holds }

end NodeView

namespace WorkflowTree

/-- What a graph shows at a place is what a view shows: the same node, and on both sides the same
links to the same nodes in the same order, whether they are listed or looked up. -/
structure Shows (tree : WorkflowTree) (place : Place) (view : NodeView) : Prop where
  node : tree.record? place = some view.node
  parents : (tree.parents place).map tree.linked? = view.parents.map some
  children : (tree.children place).map tree.linked? = view.children.map some
  parentByLink : ∀ id,
    (tree.parentByLink? place id).map tree.record? = (view.parentByLink? id).map some
  childByLink : ∀ id,
    (tree.childByLink? place id).map tree.record? = (view.childByLink? id).map some
  linkDetails : tree.linkDetails place = view.linkDetails

end WorkflowTree

namespace ExactGraph

variable {store : WorkflowStore} {roots : Node → Prop} {tree : WorkflowTree} {place : Place}
  {node : Node}

/-- The links of a place are those of the view, if only held parents are looked at. -/
theorem linkDetails_eq (graph : ExactGraph store roots tree)
    (stands : tree.record? place = some node) :
    tree.linkDetails place = ((store.viewOf node).within tree).linkDetails := by
  have above := graph.map_link_neighbours stands .above
  have below := graph.map_link_neighbours stands .below
  rw [graph.filter_holds_below stands] at below
  have ofTree : tree.linkDetails place =
      Link.byId ((tree.incoming place ++ tree.outgoing place).map TreeNeighbour.link) := by
    rw [Link.byId, List.foldl_map]
    rfl
  have ofView : ((store.viewOf node).within tree).linkDetails =
      Link.byId ((tree.parents place ++ tree.children place).map TreeNeighbour.link) := by
    rw [List.map_append, show (tree.parents place).map TreeNeighbour.link = _ from above,
      show (tree.children place).map TreeNeighbour.link = _ from below, ← List.map_append,
      Link.byId, List.foldl_map]
    rfl
  have sorted : ∀ side, (tree.neighbours side place).Perm (tree.touching side place) := by
    intro side
    rw [WorkflowTree.neighbours_eq]
    exact List.mergeSort_perm _ _
  have stored : ∀ link ∈ (tree.incoming place ++ tree.outgoing place).map TreeNeighbour.link,
      link ∈ store.links.rows := by
    intro link listed
    rcases List.mem_map.mp listed with ⟨neighbour, member, rfl⟩
    rcases List.mem_append.mp member with incoming | outgoing
    · have touches : neighbour ∈ tree.touching .above place := incoming
      exact ((graph.followed_iff .above).mp (graph.mem_touching.mp touches).1).1
    · have touches : neighbour ∈ tree.touching .below place := outgoing
      exact ((graph.followed_iff .below).mp (graph.mem_touching.mp touches).1).1
  rw [ofTree, ofView]
  apply Link.byId_congr
  · intro link
    exact (((sorted .above).append (sorted .below)).map TreeNeighbour.link).mem_iff.symm
  · intro first listed second listedToo same
    exact Table.eq_of_mem_of_idOf (stored first listed) (stored second listedToo) same

/-- A graph shows each of its nodes as the store views it, with the parents that it holds. -/
theorem shows_within (graph : ExactGraph store roots tree)
    (stands : tree.record? place = some node) :
    tree.Shows place ((store.viewOf node).within tree) where
  node := stands
  parents := graph.map_linked?_neighbours stands .above
  children := by
    have below := graph.map_linked?_neighbours stands .below
    rw [graph.filter_holds_below stands] at below
    exact below
  parentByLink id := graph.map_record?_byLink? stands .above id
  childByLink id := by
    have below := graph.map_record?_byLink? stands .below id
    rw [graph.filter_holds_below stands] at below
    exact below
  linkDetails := graph.linkDetails_eq stands

end ExactGraph

namespace WorkflowTree

/-- A graph was returned for a version or for a node, when nothing disturbed the expansion. -/
def Returned (store : WorkflowStore) (tree : WorkflowTree) : Prop :=
  (∃ version after, outcome (ofVersion store.nodeIds version) store = (.ok tree, after)) ∨
    ∃ id after, outcome (ofNode store.nodeIds id) store = (.ok tree, after)

variable {store : WorkflowStore} {tree : WorkflowTree}

/-- Whichever expansion returned a graph, it is the exact one of its roots. -/
theorem Returned.exactGraph (returned : Returned store tree) :
    ∃ roots, ExactGraph store roots tree := by
  have listed := store.listedIn_nodeIds
  rcases returned with ⟨version, after, yields⟩ | ⟨id, after, yields⟩
  · rcases ofVersion_answers store version with ⟨answer, runs, _, graph⟩
    rw [runs _ listed] at yields
    exact ⟨_, graph tree (congrArg Prod.fst yields)⟩
  · cases held : store.node? id with
    | none =>
      rw [outcome_ofNode_of_none held] at yields
      cases yields
    | some root =>
      rcases ofNode_answers held with ⟨answer, runs, _, graph⟩
      rw [runs _ listed] at yields
      exact ⟨_, graph tree (congrArg Prod.fst yields)⟩

/-- A graph that an expansion has returned shows each node that it holds just as the store views
that node, except for the parents that the graph does not hold. -/
theorem returned_shows_views (store : WorkflowStore) (tree : WorkflowTree)
    (returned : Returned store tree) (place : Place) (node : Node)
    (stands : tree.record? place = some node) :
    ∃ view, outcome (NodeView.load? node.id) store = (.ok (some view), store) ∧
      tree.Shows place (view.within tree) := by
  rcases returned.exactGraph with ⟨roots, graph⟩
  have member := ((graph.nodes node).mp (List.mem_of_getElem? stands)).1
  exact ⟨_, NodeView.outcome_load?_of_mem member, graph.shows_within stands⟩

end WorkflowTree

/-- The diamond with a second link from node 3 to node 5, which feeds the same slot. -/
def WorkflowStore.braid : WorkflowStore :=
  { WorkflowStore.diamond with
    issued := 10
    links :=
      { rows := [⟨.plain ⟨1⟩ ⟨2⟩ ⟨3⟩, ⟨6⟩⟩, ⟨.plain ⟨1⟩ ⟨2⟩ ⟨4⟩, ⟨7⟩⟩,
          ⟨{ NewLink.plain ⟨1⟩ ⟨3⟩ ⟨5⟩ with output := 1 }, ⟨8⟩⟩, ⟨.plain ⟨1⟩ ⟨4⟩ ⟨5⟩, ⟨9⟩⟩,
          ⟨.plain ⟨1⟩ ⟨3⟩ ⟨5⟩, ⟨10⟩⟩]
        ascending := by decide } }

namespace WorkflowTree

/-- The graph of node 3 in the braid holds node 5 but not node 4, one of its parents. -/
theorem returned_shows_views_braid :
    ∃ tree place node view, node.id = ⟨5⟩ ∧ Returned .braid tree ∧
      tree.record? place = some node ∧ tree.place? ⟨4⟩ = none ∧
      outcome (NodeView.load? node.id) .braid = (.ok (some view), .braid) ∧
      tree.Shows place (view.within tree) := by
  have rising : ∀ link ∈ WorkflowStore.braid.links.rows, link.parent.raw < link.child.raw := by
    decide
  have below : ∀ link ∈ WorkflowStore.braid.links.rows,
      link.parent = ⟨3⟩ ∨ link.parent = ⟨5⟩ → link.child = ⟨5⟩ := by
    decide
  have held : WorkflowStore.braid.node? ⟨3⟩ = some ⟨.plain ⟨1⟩, ⟨3⟩⟩ := by decide
  rcases ofNode_answers held with ⟨answer, runs, finds, exact⟩
  have acyclic : ¬ ∃ id, WorkflowStore.braid.ReachedFrom (fun node => node = ⟨.plain ⟨1⟩, ⟨3⟩⟩) id ∧
      WorkflowStore.braid.OnCycle id := by
    rintro ⟨id, _, cycle⟩
    exact WorkflowStore.not_onCycle_of_rising rising id cycle
  rcases finds.ok_iff.mpr acyclic with ⟨tree, yields⟩
  have graph := exact tree yields
  have run := runs _ WorkflowStore.braid.listedIn_nodeIds
  rw [yields] at run
  have returned : Returned .braid tree := Or.inr ⟨⟨3⟩, .braid, run⟩
  have leads : WorkflowStore.braid.LeadsTo ⟨3⟩ ⟨5⟩ := by
    exact ⟨by decide, by decide, ⟨.plain ⟨1⟩ ⟨3⟩ ⟨5⟩, ⟨10⟩⟩, by decide, rfl, rfl⟩
  have reached : WorkflowStore.braid.ReachedFrom (fun node => node = ⟨.plain ⟨1⟩, ⟨3⟩⟩) ⟨5⟩ :=
    ⟨_, rfl, Relation.ReflTransGen.single leads⟩
  have member := (graph.nodes ⟨.plain ⟨1⟩, ⟨5⟩⟩).mpr ⟨by decide, reached⟩
  rcases List.mem_iff_getElem?.mp member with ⟨place, stands⟩
  rcases returned_shows_views .braid tree returned place _ stands with ⟨view, loads, shows⟩
  refine ⟨tree, place, _, view, rfl, returned, stands, ?_, loads, shows⟩
  rw [← Option.not_isSome_iff_eq_none]
  intro place
  rcases graph.reached_of_place place with ⟨_, root, rfl, path⟩
  have only : ∀ {id}, WorkflowStore.braid.Reaches ⟨3⟩ id → id = ⟨3⟩ ∨ id = ⟨5⟩ := by
    intro id path
    induction path with
    | refl => exact Or.inl rfl
    | tail _ last ih =>
      rcases last with ⟨_, _, link, listed, rfl, rfl⟩
      exact Or.inr (below link listed ih)
  exact absurd (only path) (by decide)

end WorkflowTree

end NodeSteward
