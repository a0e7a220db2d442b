import NodeSteward.Workflow.Node

/-!
# Links between nodes

A link leads from an output slot of its parent node to an input slot of its child node.  Slots
are numbered, so that a node can have several outputs.
-/

namespace NodeSteward

/-- A link without an identifier. -/
structure NewLink where
  versionId : VersionId
  name : String
  parent : NodeId
  output : Int32
  child : NodeId
  input : Int32
  /-- Hints on the layout for the editor, which nothing here interprets. -/
  visibility : String
  createdOn : Timestamp
  updatedOn : Timestamp
  deriving DecidableEq, Repr

/-- A stored link. -/
structure Link extends NewLink where
  id : LinkId
  deriving DecidableEq, Repr

instance : Filed .link Link := ⟨Link.id⟩

namespace NewLink

/-- The stored form under an identifier. -/
def withId (link : NewLink) (id : LinkId) : Link :=
  { link with id }

def members (link : NewLink) : List (String × Json) :=
  [("workflow_version_id", link.versionId.toJson), ("name", .text link.name),
    ("parent_node_id", link.parent.toJson), ("parent_output_index", .ofInt link.output.toInt),
    ("child_node_id", link.child.toJson), ("child_input_index", .ofInt link.input.toInt),
    ("visibility_settings", .text link.visibility), ("created_on", link.createdOn.toJson),
    ("updated_on", link.updatedOn.toJson)]

def toJson (link : NewLink) : Json :=
  .ofMembers link.members

def fields : List String :=
  ["workflow_version_id", "name", "parent_node_id", "parent_output_index", "child_node_id",
    "child_input_index", "visibility_settings", "created_on", "updated_on"]

def ofSlots? (slots : Source.Slots) : Option NewLink := do
  return {
    versionId := ← slots.required "workflow_version_id" Id.decode?
    name := ← slots.required "name" Source.text?
    parent := ← slots.required "parent_node_id" Id.decode?
    output := ← slots.required "parent_output_index" Source.int32?
    child := ← slots.required "child_node_id" Id.decode?
    input := ← slots.required "child_input_index" Source.int32?
    visibility := ← slots.required "visibility_settings" Source.text?
    createdOn := ← slots.required "created_on" Timestamp.decode?
    updatedOn := ← slots.required "updated_on" Timestamp.decode? }

def decode? (source : Source) : Option NewLink :=
  (source.slots? fields).bind ofSlots?

end NewLink

namespace Link

/-- The order of links by their output slot, and by their identifier where that is the same. -/
def outputOrder (first second : Link) : Bool :=
  first.output < second.output || (first.output == second.output && first.id.raw ≤ second.id.raw)

/-- The order of links by their input slot, and by their identifier where that is the same. -/
def inputOrder (first second : Link) : Bool :=
  first.input < second.input || (first.input == second.input && first.id.raw ≤ second.id.raw)

def toJson (link : Link) : Json :=
  .ofMembers (("id", link.id.toJson) :: link.members)

def decode? (source : Source) : Option Link := do
  let slots ← source.slots? ("id" :: NewLink.fields)
  return (← NewLink.ofSlots? slots).withId (← slots.required "id" Id.decode?)

end Link

/-- A neighbour of a node and the link that connects the two. -/
structure LinkedNode where
  link : Link
  node : Node
  deriving DecidableEq, Repr

namespace LinkedNode

def toJson (linked : LinkedNode) : Json :=
  .ofMembers [("link", linked.link.toJson), ("node", linked.node.toJson)]

def decode? (source : Source) : Option LinkedNode := do
  let slots ← source.slots? ["link", "node"]
  return ⟨← slots.required "link" Link.decode?, ← slots.required "node" Node.decode?⟩

end LinkedNode

end NodeSteward
