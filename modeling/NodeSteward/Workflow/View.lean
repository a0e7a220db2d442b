import NodeSteward.Workflow.Requests

/-!
# One node with its neighbours

A view holds a node, the nodes whose outputs it reads and the nodes that read its outputs, each
with the link that connects the two.  A neighbour stands once for every link, which is why
look-ups go by the link.
-/

namespace NodeSteward

open WorkflowProgram (ask)

/-- A node with its direct neighbours. -/
structure NodeView where
  node : Node
  /-- The neighbours above, by the input slot that they feed. -/
  parents : List LinkedNode
  /-- The neighbours below, by the output slot that they read. -/
  children : List LinkedNode
  deriving DecidableEq, Repr

/-- Puts a link at its place among links in ascending order of their identifiers; one of the
same identifier is replaced. -/
def Link.insertById (link : Link) (links : List Link) : List Link :=
  Table.insertRow link links

namespace LinkedNode

/-- The neighbour that is connected through a link. -/
def byLink? (neighbours : List LinkedNode) (id : LinkId) : Option Node :=
  (neighbours.find? (fun linked => linked.link.id = id)).map LinkedNode.node

end LinkedNode

namespace NodeView

def id (view : NodeView) : NodeId :=
  view.node.id

/-- Every link that touches the node, in the order of identifiers. -/
def linkDetails (view : NodeView) : List Link :=
  (view.parents ++ view.children).foldl (fun links linked => linked.link.insertById links) []

/-- The parent that is connected through a link. -/
def parentByLink? (view : NodeView) (id : LinkId) : Option Node :=
  LinkedNode.byLink? view.parents id

/-- The child that is connected through a link. -/
def childByLink? (view : NodeView) (id : LinkId) : Option Node :=
  LinkedNode.byLink? view.children id

/-- Loads a node with its neighbours, unless there is no such node. -/
def load? (id : NodeId) : WorkflowProgram (Option NodeView) := do
  match ← ask (.getNode id) with
  | none => return none
  | some node =>
    let parents ← ask (.parentLinks id)
    let children ← ask (.childLinks id)
    return some { node, parents, children }

def toJson (view : NodeView) : Json :=
  .ofMembers
    [("node", view.node.toJson), ("parents", .ofList LinkedNode.toJson view.parents),
      ("children", .ofList LinkedNode.toJson view.children)]

def decode? (source : Source) : Option NodeView := do
  let slots ← source.slots? ["node", "parents", "children"]
  return {
    node := ← slots.required "node" Node.decode?
    parents := ← slots.required "parents" (Source.list? LinkedNode.decode?)
    children := ← slots.required "children" (Source.list? LinkedNode.decode?) }

end NodeView

end NodeSteward
