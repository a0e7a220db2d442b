import NodeSteward.Workflow.View

/-!
# The graph of a version

Expanding a version follows the links from its root nodes.  The graph is an arena: every node that
is reached gets one place, however many links lead to it, and every link that is followed becomes
an edge between two places.

The walk goes depth first, with a stack of the nodes whose children are not all done.  A node is in
progress from the moment it is entered until all its children are done; a link that leads back to
a node in progress closes a cycle, and no graph is returned.  The marks are kept over all roots of
a version, so what one root has expanded is not expanded again for the next.

Only nodes that were on file when the walk began are entered.  A step either marks one of them for
the first time or finishes one child on the stack, so the walk ends whatever the links are.
-/

namespace NodeSteward

open WorkflowProgram (ask)

/-- What is known of single nodes.  A newer entry for a node hides the older ones. -/
structure NodeMap (β : Type) where
  entries : List (NodeId × β)
  deriving DecidableEq, Repr

namespace NodeMap

variable {β : Type}

def empty : NodeMap β := ⟨[]⟩

def get? (map : NodeMap β) (id : NodeId) : Option β :=
  map.entries.lookup id

def insert (map : NodeMap β) (id : NodeId) (value : β) : NodeMap β :=
  ⟨(id, value) :: map.entries⟩

@[simp]
theorem get?_empty (id : NodeId) : (empty : NodeMap β).get? id = none := by
  rw [get?, empty, List.lookup_nil]

theorem get?_insert (map : NodeMap β) (id other : NodeId) (value : β) :
    (map.insert id value).get? other = if other = id then some value else map.get? other := by
  unfold get? insert
  rw [List.lookup_cons]
  by_cases same : other = id
  · rw [if_pos same, same, beq_self_eq_true]
  · rw [if_neg same, beq_false_of_ne same]

end NodeMap

/-- A position in the arena of a graph. -/
abbrev Place := Nat

/-- A followed link with the places that it connects. -/
structure TreeEdge where
  link : Link
  parent : Place
  child : Place
  deriving DecidableEq, Repr

/-- The graph that was reached from some roots. -/
structure WorkflowTree where
  /-- The held nodes, in the order in which they were entered. -/
  nodes : List Node
  /-- The followed links, in the order in which they were met. -/
  edges : List TreeEdge
  /-- The place of each held node. -/
  places : NodeMap Place
  /-- The places from which the walk started. -/
  roots : List Place
  deriving DecidableEq, Repr

/-- A place that is connected with another one through a link. -/
structure TreeNeighbour where
  link : Link
  place : Place
  deriving DecidableEq, Repr

namespace WorkflowTree

def empty : WorkflowTree := ⟨[], [], .empty, []⟩

/-- The place of the held node with the given identifier. -/
def place? (tree : WorkflowTree) (id : NodeId) : Option Place :=
  tree.places.get? id

/-- The node at a place. -/
def record? (tree : WorkflowTree) (place : Place) : Option Node :=
  tree.nodes[place]?

/-- The nodes from which the walk started. -/
def rootNodes (tree : WorkflowTree) : List Node :=
  tree.roots.filterMap tree.record?

def nodeCount (tree : WorkflowTree) : Nat :=
  tree.nodes.length

def linkCount (tree : WorkflowTree) : Nat :=
  tree.edges.length

def isEmpty (tree : WorkflowTree) : Bool :=
  tree.nodes.isEmpty

/-- The edges that leave a place, in the order of the walk. -/
def outgoing (tree : WorkflowTree) (place : Place) : List TreeNeighbour :=
  tree.edges.filterMap (fun edge =>
    if edge.parent = place then some ⟨edge.link, edge.child⟩ else none)

/-- The edges that lead to a place, in the order of the walk. -/
def incoming (tree : WorkflowTree) (place : Place) : List TreeNeighbour :=
  tree.edges.filterMap (fun edge =>
    if edge.child = place then some ⟨edge.link, edge.parent⟩ else none)

/-- The children of a place by output slot. -/
def children (tree : WorkflowTree) (place : Place) : List TreeNeighbour :=
  (tree.outgoing place).mergeSort (fun first second => first.link.outputOrder second.link)

/-- The parents of a place by input slot. -/
def parents (tree : WorkflowTree) (place : Place) : List TreeNeighbour :=
  (tree.incoming place).mergeSort (fun first second => first.link.inputOrder second.link)

/-- Every followed link that touches a place, in the order of identifiers. -/
def linkDetails (tree : WorkflowTree) (place : Place) : List Link :=
  (tree.incoming place ++ tree.outgoing place).foldl
    (fun links neighbour => neighbour.link.insertById links) []

/-- The child that is reached through a link. -/
def childByLink? (tree : WorkflowTree) (place : Place) (id : LinkId) : Option Place :=
  ((tree.outgoing place).find? (fun neighbour => neighbour.link.id = id)).map TreeNeighbour.place

/-- The parent that is reached through a link. -/
def parentByLink? (tree : WorkflowTree) (place : Place) (id : LinkId) : Option Place :=
  ((tree.incoming place).find? (fun neighbour => neighbour.link.id = id)).map TreeNeighbour.place

/-- The held nodes with their places, in the order of their identifiers. -/
def placedById (tree : WorkflowTree) : List (Node × Place) :=
  tree.nodes.zipIdx.mergeSort (fun first second => first.1.id.raw ≤ second.1.id.raw)

/-- True when no node has two places, so that all links to a node lead to one. -/
def holdsNodesOnce (tree : WorkflowTree) : Bool :=
  (tree.nodes.map Node.id).Nodup

/-- The place that the next node gets. -/
def nextPlace (tree : WorkflowTree) : Place :=
  tree.nodes.length

/-- The graph with one more node. -/
def addNode (tree : WorkflowTree) (node : Node) : WorkflowTree :=
  { tree with
    nodes := tree.nodes ++ [node]
    places := tree.places.insert node.id tree.nextPlace }

/-- The graph with one more edge. -/
def addEdge (tree : WorkflowTree) (link : Link) (parent child : Place) : WorkflowTree :=
  { tree with edges := tree.edges ++ [⟨link, parent, child⟩] }

/-- The graph with one more edge to a node that it holds; a link to any other node is left out. -/
def addEdgeTo (tree : WorkflowTree) (link : Link) (parent : Place) (child : NodeId) :
    WorkflowTree :=
  match tree.place? child with
  | some place => tree.addEdge link parent place
  | none => tree

/-- The graph with one more root. -/
def addRoot (tree : WorkflowTree) (root : Place) : WorkflowTree :=
  { tree with roots := tree.roots ++ [root] }

end WorkflowTree

/-! ## The walk -/

/-- How far the walk has come with a node that it has entered. -/
inductive Mark where
  /-- Not all children are done. -/
  | inProgress
  | done
  deriving DecidableEq, Repr

/-- A node in progress: its place, and its children that have not been looked at. -/
structure Frame where
  place : Place
  id : NodeId
  pending : List LinkedNode
  deriving DecidableEq, Repr

/-- What the walk has found so far. -/
structure Expansion where
  tree : WorkflowTree
  marks : NodeMap Mark
  deriving DecidableEq, Repr

namespace Expansion

def empty : Expansion := ⟨.empty, .empty⟩

/-- Those of some nodes that have not been entered. -/
def unentered (found : Expansion) (ids : List NodeId) : List NodeId :=
  ids.filter (fun id => (found.marks.get? id).isNone)

/-- Holds a node and marks it as being in progress. -/
def enter (found : Expansion) (node : Node) : Expansion where
  tree := found.tree.addNode node
  marks := found.marks.insert node.id .inProgress

/-- Marks a node as done. -/
def finish (found : Expansion) (id : NodeId) : Expansion :=
  { found with marks := found.marks.insert id .done }

theorem unentered_of_insert (found : Expansion) (tree : WorkflowTree) (id : NodeId) (mark : Mark)
    (ids : List NodeId) :
    unentered ⟨tree, found.marks.insert id mark⟩ ids =
      (found.unentered ids).filter (fun other => other ≠ id) := by
  unfold unentered
  rw [List.filter_filter]
  refine List.filter_congr (fun other _ => ?_)
  by_cases same : other = id
  · simp [NodeMap.get?_insert, same]
  · simp [NodeMap.get?_insert, same]

theorem unentered_insert_le (found : Expansion) (tree : WorkflowTree) (id : NodeId) (mark : Mark)
    (ids : List NodeId) :
    (unentered ⟨tree, found.marks.insert id mark⟩ ids).length ≤ (found.unentered ids).length := by
  rw [unentered_of_insert]
  exact List.length_filter_le _ _

/-- Entering a node leaves fewer to enter. -/
theorem unentered_insert_lt {found : Expansion} {id : NodeId} {ids : List NodeId}
    (tree : WorkflowTree) (mark : Mark) (onFile : id ∈ ids)
    (fresh : found.marks.get? id = none) :
    (unentered ⟨tree, found.marks.insert id mark⟩ ids).length < (found.unentered ids).length := by
  rw [unentered_of_insert]
  refine List.length_filter_lt_length_iff_exists.mpr ⟨id, ?_, by simp⟩
  exact List.mem_filter.mpr ⟨onFile, by simp [fresh]⟩

end Expansion

namespace WorkflowTree

/-- The steps that a stack takes if it grows no more. -/
def stackWeight : List Frame → Nat
  | [] => 0
  | frame :: below => frame.pending.length + 1 + stackWeight below

/-- Walks until the stack is empty.  A child that was put on file after the walk began is passed
over. -/
def walk (onFile : List NodeId) (stack : List Frame) (found : Expansion) :
    WorkflowProgram Expansion :=
  match stack with
  | [] => pure found
  | ⟨_, id, []⟩ :: below => walk onFile below (found.finish id)
  | ⟨place, id, ⟨link, child⟩ :: pending⟩ :: below =>
    match _ : found.marks.get? child.id with
    | some .inProgress => throw (.cycleDetected child.id)
    | some .done =>
      walk onFile (⟨place, id, pending⟩ :: below)
        { found with tree := found.tree.addEdgeTo link place child.id }
    | none =>
      if child.id ∈ onFile then do
        let children ← ask (.childLinks child.id)
        let childPlace := found.tree.nextPlace
        let entered := found.enter child
        walk onFile (⟨childPlace, child.id, children⟩ :: ⟨place, id, pending⟩ :: below)
          { entered with tree := entered.tree.addEdge link place childPlace }
      else walk onFile (⟨place, id, pending⟩ :: below) found
termination_by ((found.unentered onFile).length, stackWeight stack)
decreasing_by
  · exact Prod.Lex.right' _ (found.unentered_insert_le _ _ _ _) (by simp [stackWeight])
  · exact Prod.Lex.right' _ (Nat.le_refl _) (by simp [stackWeight])
  · rename_i fresh onFile
    exact Prod.Lex.left _ _ (Expansion.unentered_insert_lt _ _ onFile fresh)
  · exact Prod.Lex.right' _ (Nat.le_refl _) (by simp [stackWeight])

/-- Walks from a root, unless an earlier walk has entered it. -/
def walkRoot (onFile : List NodeId) (found : Expansion) (root : Node) :
    WorkflowProgram Expansion := do
  match found.marks.get? root.id with
  | some _ => return found
  | none =>
    let children ← ask (.childLinks root.id)
    let place := found.tree.nextPlace
    let entered := found.enter root
    walk onFile [⟨place, root.id, children⟩] { entered with tree := entered.tree.addRoot place }

/-- Expands a version from all its root nodes, in the order of their identifiers.  `onFile`
lists the nodes of the store when the walk starts.  A version that does not exist, or has no
nodes, yields the empty graph. -/
def ofVersion (onFile : List NodeId) (id : VersionId) : WorkflowProgram WorkflowTree := do
  let roots ← ask (.rootNodes id)
  let ordered := roots.mergeSort (fun first second => first.id.raw ≤ second.id.raw)
  let found ← ordered.foldlM (walkRoot onFile) .empty
  return found.tree

/-- Expands the graph that is reached from one node. -/
def ofNode (onFile : List NodeId) (id : NodeId) : WorkflowProgram WorkflowTree := do
  match ← ask (.getNode id) with
  | none => throw (.recursionInput id)
  | some root =>
    let found ← walkRoot onFile .empty root
    return found.tree

end WorkflowTree

namespace WorkflowStore

/-- The identifiers of all stored nodes. -/
def nodeIds (store : WorkflowStore) : List NodeId :=
  store.nodes.rows.map Node.id

end WorkflowStore

end NodeSteward
