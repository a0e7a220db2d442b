import NodeSteward.Proofs.Workflow.Arena
import NodeSteward.Proofs.Workflow.Outcome
import NodeSteward.Proofs.Workflow.Reach

/-!
# What a depth-first walk keeps

The invariant of the walk relates its stack, its marks, the arena and the children that are still
pending to the stored links.  The nodes in progress are the nodes of the stack; a frame is reached
from every frame below it; a node that is done has only children that are done, and lies on no
cycle; a stored link out of a held node has an edge unless it is still pending.

Three things happen to a walk: a node is entered, a child is followed, a node is finished.  Each
keeps the invariant, and a child in progress lies on a cycle.  The outcome of a whole walk follows
by induction on its recursion.
-/

namespace NodeSteward

open WorkflowProgram (outcome)

variable {store : WorkflowStore} {starts : Node → Prop} {stack : List Frame} {found : Expansion}

/-- A node in progress with its place. -/
def Frame.spot (frame : Frame) : NodeId × Place :=
  (frame.id, frame.place)

/-- One spot was entered after another one, from which stored links lead to it. -/
def WorkflowStore.Above (store : WorkflowStore) (upper lower : NodeId × Place) : Prop :=
  lower.2 < upper.2 ∧ Relation.TransGen store.LeadsTo lower.1 upper.1

/-- A link waits while it is among the pending children of a frame. -/
def Waiting (stack : List Frame) (link : Link) : Prop :=
  ∃ frame ∈ stack, ∃ linked ∈ frame.pending, linked.link = link

/-- A child of a node in progress is pending, or done, or was entered after that node. -/
def Frame.Accounts (frame : Frame) (found : Expansion) (linked : LinkedNode) : Prop :=
  linked ∈ frame.pending ∨ found.marks.get? linked.node.id = some .done ∨
    ∃ place, found.tree.place? linked.node.id = some place ∧ frame.place < place

/-- What holds of every frame of a stack. -/
structure Frame.Sound (frame : Frame) (store : WorkflowStore) (found : Expansion) : Prop where
  placed : found.tree.place? frame.id = some frame.place
  /-- The children are looked at in their order. -/
  pending : frame.pending <:+ store.childLinks frame.id
  accounts : ∀ linked ∈ store.childLinks frame.id, frame.Accounts found linked

/-- The invariant of a walk that started from the given nodes. -/
structure Walking (store : WorkflowStore) (starts : Node → Prop) (stack : List Frame)
    (found : Expansion) : Prop where
  arena : found.tree.Sound
  /-- The held nodes are the marked ones. -/
  marked : ∀ id, (found.marks.get? id).isSome ↔ (found.tree.place? id).isSome
  stored : ∀ node ∈ found.tree.nodes, node ∈ store.nodes.rows
  reached : ∀ node ∈ found.tree.nodes, store.ReachedFrom starts node.id
  /-- The nodes in progress are exactly the nodes of the stack. -/
  inProgress : ∀ id, found.marks.get? id = some .inProgress ↔ id ∈ stack.map Frame.id
  frames : ∀ frame ∈ stack, frame.Sound store found
  /-- Every frame is reached from the frames below it, and was entered after them. -/
  path : (stack.map Frame.spot).Pairwise store.Above
  /-- The links that have an edge are those out of held nodes that do not wait any more. -/
  followed : ∀ link, link ∈ found.tree.edges.map TreeEdge.link ↔
    link ∈ store.links.rows ∧ (store.node? link.child).isSome ∧
      (found.tree.place? link.parent).isSome ∧ ¬ Waiting stack link
  closed : ∀ id child, found.marks.get? id = some .done → store.LeadsTo id child →
    found.marks.get? child = some .done
  acyclic : ∀ id, found.marks.get? id = some .done → ¬ store.OnCycle id

namespace Expansion

theorem marks_enter (found : Expansion) (node : Node) (id : NodeId) :
    (found.enter node).marks.get? id =
      if id = node.id then some .inProgress else found.marks.get? id :=
  NodeMap.get?_insert _ _ _ _

theorem marks_finish (found : Expansion) (id other : NodeId) :
    (found.finish id).marks.get? other =
      if other = id then some .done else found.marks.get? other :=
  NodeMap.get?_insert _ _ _ _

end Expansion

/-- A frame stays sound while nodes are entered and others become done. -/
theorem Frame.Sound.mono {frame : Frame} {after : Expansion} (sound : frame.Sound store found)
    (places : ∀ id place, found.tree.place? id = some place → after.tree.place? id = some place)
    (dones : ∀ id, found.marks.get? id = some .done → after.marks.get? id = some .done) :
    frame.Sound store after where
  placed := places _ _ sound.placed
  pending := sound.pending
  accounts linked member := by
    rcases sound.accounts linked member with waits | settled | ⟨place, placed, later⟩
    · exact Or.inl waits
    · exact Or.inr (Or.inl (dones _ settled))
    · exact Or.inr (Or.inr ⟨place, places _ _ placed, later⟩)

namespace Walking

theorem stored_of_placed (walking : Walking store starts stack found) {id : NodeId}
    (held : (found.tree.place? id).isSome) : (store.node? id).isSome := by
  rcases walking.arena.isSome_place?_iff.mp held with ⟨node, member, named⟩
  exact WorkflowStore.isSome_node?_iff.mpr ⟨node, walking.stored node member, named⟩

theorem reached_of_placed (walking : Walking store starts stack found) {id : NodeId}
    (held : (found.tree.place? id).isSome) : store.ReachedFrom starts id := by
  rcases walking.arena.isSome_place?_iff.mp held with ⟨node, member, named⟩
  exact named ▸ walking.reached node member

theorem placed_of_marked (walking : Walking store starts stack found) {id : NodeId} {mark : Mark}
    (marked : found.marks.get? id = some mark) : (found.tree.place? id).isSome := by
  rw [← walking.marked, marked]
  rfl

theorem fresh_place (walking : Walking store starts stack found) {id : NodeId}
    (fresh : found.marks.get? id = none) : found.tree.place? id = none := by
  have unmarked : ¬ (found.tree.place? id).isSome := by
    rw [← walking.marked, fresh]
    simp
  exact Option.not_isSome_iff_eq_none.mp unmarked

theorem placed_of_mem (walking : Walking store starts stack found) {frame : Frame}
    (member : frame ∈ stack) : (found.tree.place? frame.id).isSome := by
  rw [(walking.frames frame member).placed]
  rfl

/-- The places of a stack differ, so its nodes do. -/
theorem nodup_ids (walking : Walking store starts stack found) : (stack.map Frame.id).Nodup := by
  refine List.pairwise_map.mpr ?_
  refine List.Pairwise.imp_of_mem ?_ (List.pairwise_map.mp walking.path)
  intro upper lower upperMember lowerMember above same
  have upperPlaced := (walking.frames upper upperMember).placed
  rw [same, (walking.frames lower lowerMember).placed] at upperPlaced
  exact Nat.ne_of_lt above.1 (Option.some.inj upperPlaced)

/-- A pending child of a frame is a child of its node. -/
theorem mem_childLinks_of_pending (walking : Walking store starts stack found) {frame : Frame}
    {linked : LinkedNode} (member : frame ∈ stack) (waits : linked ∈ frame.pending) :
    linked ∈ store.childLinks frame.id :=
  (walking.frames frame member).pending.subset waits

theorem leadsTo_of_pending (walking : Walking store starts stack found) {frame : Frame}
    {linked : LinkedNode} (member : frame ∈ stack) (waits : linked ∈ frame.pending) :
    store.LeadsTo frame.id linked.node.id := by
  have stored := walking.stored_of_placed (walking.placed_of_mem member)
  exact (WorkflowStore.leadsTo_iff_childLinks stored).mpr
    ⟨linked, walking.mem_childLinks_of_pending member waits, rfl⟩

/-- The walk starts with nothing held. -/
theorem empty (store : WorkflowStore) (starts : Node → Prop) :
    Walking store starts [] .empty where
  arena := WorkflowTree.Sound.empty
  marked id := by simp [Expansion.empty, WorkflowTree.empty, WorkflowTree.place?]
  stored node member := absurd member List.not_mem_nil
  reached node member := absurd member List.not_mem_nil
  inProgress id := by simp [Expansion.empty]
  frames frame member := absurd member List.not_mem_nil
  path := List.Pairwise.nil
  followed link := by simp [Expansion.empty, WorkflowTree.empty, WorkflowTree.place?]
  closed id child marked := by simp [Expansion.empty] at marked
  acyclic id marked := by simp [Expansion.empty] at marked

/-- More roots may be named than were needed. -/
theorem mono (walking : Walking store starts stack found) {others : Node → Prop}
    (included : ∀ root, starts root → others root) : Walking store others stack found :=
  { walking with reached := fun node member => (walking.reached node member).mono included }

/-- Noting a root changes nothing that the invariant speaks of. -/
theorem addRoot (walking : Walking store starts stack found) (root : Place) :
    Walking store starts stack { found with tree := found.tree.addRoot root } where
  arena := walking.arena.addRoot root
  marked := walking.marked
  stored := walking.stored
  reached := walking.reached
  inProgress := walking.inProgress
  frames frame member :=
    (walking.frames frame member).mono (fun _ _ same => same) (fun _ same => same)
  path := walking.path
  followed := walking.followed
  closed := walking.closed
  acyclic := walking.acyclic

/-! ## The steps of a walk -/

theorem waiting_enter {node : Node} {place : Place} {link : Link} :
    Waiting (⟨place, node.id, store.childLinks node.id⟩ :: stack) link ↔
      (link ∈ store.links.rows ∧ link.parent = node.id ∧ (store.node? link.child).isSome) ∨
        Waiting stack link := by
  constructor
  · rintro ⟨frame, member, linked, waits, rfl⟩
    rcases List.mem_cons.mp member with rfl | below
    · rcases WorkflowStore.mem_childLinks.mp waits with ⟨listed, leaves, leads⟩
      exact Or.inl ⟨listed, leaves, by rw [leads]; rfl⟩
    · exact Or.inr ⟨frame, below, linked, waits, rfl⟩
  · rintro (⟨listed, leaves, stored⟩ | ⟨frame, member, linked, waits, same⟩)
    · rcases Option.isSome_iff_exists.mp stored with ⟨child, leads⟩
      exact ⟨_, List.mem_cons_self, ⟨link, child⟩,
        WorkflowStore.mem_childLinks.mpr ⟨listed, leaves, leads⟩, rfl⟩
    · exact ⟨frame, List.mem_cons_of_mem _ member, linked, waits, same⟩

/-- Entering a stored node that was not held puts it on the stack with all its children pending.
It has to be reached from the frames of the stack, if there are any. -/
theorem enter (walking : Walking store starts stack found) {node : Node}
    (member : node ∈ store.nodes.rows) (fresh : found.marks.get? node.id = none)
    (reached : store.ReachedFrom starts node.id)
    (below : ∀ frame ∈ stack, Relation.TransGen store.LeadsTo frame.id node.id) :
    Walking store starts
      (⟨found.tree.nextPlace, node.id, store.childLinks node.id⟩ :: stack) (found.enter node) := by
  have noPlace := walking.fresh_place fresh
  have places : ∀ id place, found.tree.place? id = some place →
      (found.enter node).tree.place? id = some place :=
    fun _ _ placed => WorkflowTree.place?_addNode_of_some noPlace placed
  have done_iff : ∀ id, (found.enter node).marks.get? id = some .done ↔
      found.marks.get? id = some .done := by
    intro id
    rw [Expansion.marks_enter]
    by_cases same : id = node.id
    · rw [if_pos same, same, fresh]
      simp
    · rw [if_neg same]
  have onlyNew : ∀ held ∈ (found.enter node).tree.nodes, held ∈ found.tree.nodes ∨ held = node := by
    intro held heldMember
    rcases List.mem_append.mp heldMember with old | new
    · exact Or.inl old
    · exact Or.inr (List.mem_singleton.mp new)
  constructor
  case arena => exact walking.arena.addNode noPlace
  case marked =>
    intro id
    show _ ↔ ((found.tree.addNode node).place? id).isSome
    rw [Expansion.marks_enter, WorkflowTree.place?_addNode]
    by_cases same : id = node.id
    · simp [same]
    · rw [if_neg same, if_neg same]
      exact walking.marked id
  case stored =>
    intro held heldMember
    rcases onlyNew held heldMember with old | rfl
    · exact walking.stored held old
    · exact member
  case reached =>
    intro held heldMember
    rcases onlyNew held heldMember with old | rfl
    · exact walking.reached held old
    · exact reached
  case inProgress =>
    intro id
    rw [Expansion.marks_enter, List.map_cons, List.mem_cons]
    by_cases same : id = node.id
    · simp [same]
    · rw [if_neg same, walking.inProgress]
      simp [same]
  case frames =>
    intro frame frameMember
    rcases List.mem_cons.mp frameMember with rfl | old
    · refine ⟨?_, List.suffix_refl _, fun linked waits => Or.inl waits⟩
      show (found.tree.addNode node).place? node.id = _
      rw [WorkflowTree.place?_addNode, if_pos rfl]
    · exact (walking.frames frame old).mono places (fun id => (done_iff id).mpr)
  case path =>
    refine List.pairwise_cons.mpr ⟨?_, walking.path⟩
    intro spot listed
    rcases List.mem_map.mp listed with ⟨frame, frameMember, rfl⟩
    exact ⟨walking.arena.lt_nextPlace (walking.frames frame frameMember).placed,
      below frame frameMember⟩
  case followed =>
    intro link
    show link ∈ found.tree.edges.map TreeEdge.link ↔
      _ ∧ _ ∧ ((found.tree.addNode node).place? link.parent).isSome ∧ _
    rw [walking.followed, waiting_enter, WorkflowTree.place?_addNode]
    by_cases leaves : link.parent = node.id
    · -- a link out of the new node waits, and had no edge while the node was not held
      simp only [leaves, noPlace, Option.isSome_none, Bool.false_eq_true, false_and, and_false,
        if_true, Option.isSome_some, true_and, false_iff]
      rintro ⟨listed, stored, waits⟩
      exact waits (Or.inl ⟨listed, stored⟩)
    · simp only [leaves, if_false, false_and, and_false, false_or]
  case closed =>
    intro id child marked leads
    exact (done_iff child).mpr (walking.closed id child ((done_iff id).mp marked) leads)
  case acyclic =>
    intro id marked
    exact walking.acyclic id ((done_iff id).mp marked)

theorem waiting_append {above below : List Frame} {frame : Frame} {link : Link} :
    Waiting (above ++ frame :: below) link ↔
      (∃ linked ∈ frame.pending, linked.link = link) ∨ Waiting (above ++ below) link := by
  simp only [Waiting, List.mem_append, List.mem_cons, or_and_right, exists_or, exists_eq_left]
  exact or_left_comm

/-- The frames that stay as they are when one frame of a stack looks at its next child. -/
theorem mem_of_mem_others {above below : List Frame} {frame other : Frame}
    (member : other ∈ above ++ below) : other ∈ above ++ frame :: below := by
  rcases List.mem_append.mp member with left | right
  · exact List.mem_append_left _ left
  · exact List.mem_append_right _ (List.mem_cons_of_mem _ right)

section Follow

variable {above below : List Frame} {place : Place} {id : NodeId} {linked : LinkedNode}
  {pending : List LinkedNode}

/-- A link waits at one frame only, the one of its parent, and there only once. -/
theorem not_waiting_elsewhere
    (walking : Walking store starts (above ++ ⟨place, id, linked :: pending⟩ :: below) found) :
    ¬ Waiting (above ++ ⟨place, id, pending⟩ :: below) linked.link := by
  have top : Frame.mk place id (linked :: pending) ∈
      above ++ ⟨place, id, linked :: pending⟩ :: below :=
    List.mem_append_right _ List.mem_cons_self
  have child := walking.mem_childLinks_of_pending top List.mem_cons_self
  rw [waiting_append]
  rintro (⟨other, waits, same⟩ | ⟨frame, member, other, waits, same⟩)
  · have once := (store.nodup_childLinks id).sublist
      ((walking.frames _ top).pending.sublist.map LinkedNode.link)
    rw [List.map_cons, List.nodup_cons] at once
    exact once.1 (same ▸ List.mem_map_of_mem waits)
  · have otherChild := walking.mem_childLinks_of_pending (mem_of_mem_others member) waits
    have sameId : frame.id = id := by
      rw [← (WorkflowStore.mem_childLinks.mp otherChild).2.1, same]
      exact (WorkflowStore.mem_childLinks.mp child).2.1
    have distinct := walking.nodup_ids
    rw [List.map_append, List.map_cons, List.nodup_middle, List.nodup_cons] at distinct
    rw [← List.map_append] at distinct
    exact distinct.1 (List.mem_map.mpr ⟨frame, member, sameId⟩)

/-- A frame anywhere in the stack may note the edge to its next child, once that child is done or
was entered later. -/
theorem follow (above : List Frame)
    (walking : Walking store starts (above ++ ⟨place, id, linked :: pending⟩ :: below) found)
    {childPlace : Place} (childPlaced : found.tree.place? linked.node.id = some childPlace)
    (settled : found.marks.get? linked.node.id = some .done ∨ place < childPlace) :
    Walking store starts (above ++ ⟨place, id, pending⟩ :: below)
      { found with tree := found.tree.addEdge linked.link place childPlace } := by
  have top : Frame.mk place id (linked :: pending) ∈
      above ++ ⟨place, id, linked :: pending⟩ :: below :=
    List.mem_append_right _ List.mem_cons_self
  have sound := walking.frames _ top
  have child := walking.mem_childLinks_of_pending top List.mem_cons_self
  rcases WorkflowStore.mem_childLinks.mp child with ⟨listed, leaves, leads⟩
  have waited : Waiting (above ++ ⟨place, id, linked :: pending⟩ :: below) linked.link :=
    ⟨_, top, linked, List.mem_cons_self, rfl⟩
  have spots : (above ++ ⟨place, id, pending⟩ :: below).map Frame.spot =
      (above ++ ⟨place, id, linked :: pending⟩ :: below).map Frame.spot := by
    simp [Frame.spot]
  have ids : (above ++ ⟨place, id, pending⟩ :: below).map Frame.id =
      (above ++ ⟨place, id, linked :: pending⟩ :: below).map Frame.id := by
    simp
  constructor
  case arena =>
    apply walking.arena.addEdge
    · rw [leaves]
      exact sound.placed
    · rw [← WorkflowStore.id_of_mem_childLinks child]
      exact childPlaced
    · intro edged
      exact ((walking.followed linked.link).mp edged).2.2.2 waited
  case marked => exact walking.marked
  case stored => exact walking.stored
  case reached => exact walking.reached
  case inProgress =>
    rw [ids]
    exact walking.inProgress
  case frames =>
    intro frame member
    have kept : ∀ other : Frame, other ∈ above ++ ⟨place, id, linked :: pending⟩ :: below →
        other.Sound store { found with tree := found.tree.addEdge linked.link place childPlace } :=
      fun other otherMember =>
        (walking.frames other otherMember).mono (fun _ _ same => same) (fun _ same => same)
    rcases List.mem_append.mp member with left | right
    · exact kept frame (List.mem_append_left _ left)
    · rcases List.mem_cons.mp right with rfl | right
      · refine ⟨sound.placed, (List.suffix_cons _ _).trans sound.pending, ?_⟩
        intro other otherChild
        rcases sound.accounts other otherChild with waits | accounted
        · rcases List.mem_cons.mp waits with rfl | later
          · rcases settled with isDone | later
            · exact Or.inr (Or.inl isDone)
            · exact Or.inr (Or.inr ⟨childPlace, childPlaced, later⟩)
          · exact Or.inl later
        · exact Or.inr accounted
      · exact kept frame (List.mem_append_right _ (List.mem_cons_of_mem _ right))
  case path =>
    rw [spots]
    exact walking.path
  case followed =>
    intro link
    show link ∈ (found.tree.edges ++ [TreeEdge.mk linked.link place childPlace]).map
      TreeEdge.link ↔ _ ∧ _ ∧ (found.tree.place? link.parent).isSome ∧ _
    rw [List.map_append, List.map_singleton, List.mem_append, List.mem_singleton,
      walking.followed]
    by_cases same : link = linked.link
    · -- this link has its edge now, and waits no more
      subst same
      have parentHeld : (found.tree.place? linked.link.parent).isSome := by
        rw [leaves, sound.placed]
        rfl
      have childStored : (store.node? linked.link.child).isSome := by
        rw [leads]
        rfl
      exact iff_of_true (Or.inr rfl)
        ⟨listed, childStored, parentHeld, walking.not_waiting_elsewhere⟩
    · have others : Waiting (above ++ ⟨place, id, linked :: pending⟩ :: below) link ↔
          Waiting (above ++ ⟨place, id, pending⟩ :: below) link := by
        rw [waiting_append, waiting_append]
        simp [Ne.symm same]
      rw [or_iff_left same, others]
  case closed => exact walking.closed
  case acyclic => exact walking.acyclic

end Follow

section Finish

variable {below : List Frame} {place : Place} {id : NodeId}

/-- No frame of a stack was entered after the top one. -/
theorem place_le_top {pending : List LinkedNode}
    (walking : Walking store starts (⟨place, id, pending⟩ :: below) found) {frame : Frame}
    (member : frame ∈ Frame.mk place id pending :: below) : frame.place ≤ place := by
  rcases List.mem_cons.mp member with rfl | lower
  · exact Nat.le_refl _
  · have front := (List.pairwise_cons.mp walking.path).1
    exact Nat.le_of_lt (front _ (List.mem_map_of_mem lower)).1

/-- When the top frame has no child left, all children of its node are done: a child that was
entered after the node is not on the stack any more. -/
theorem children_done (walking : Walking store starts (⟨place, id, []⟩ :: below) found)
    {child : NodeId} (leads : store.LeadsTo id child) : found.marks.get? child = some .done := by
  rcases (WorkflowStore.leadsTo_iff_childLinks leads.1).mp leads with ⟨linked, member, rfl⟩
  have top := walking.frames _ List.mem_cons_self
  rcases top.accounts linked member with waits | settled | ⟨childPlace, placed, later⟩
  · cases waits
  · exact settled
  · cases marked : found.marks.get? linked.node.id with
    | none =>
      rw [walking.fresh_place marked] at placed
      cases placed
    | some mark =>
      cases mark with
      | done => rfl
      | inProgress =>
        rcases List.mem_map.mp ((walking.inProgress linked.node.id).mp marked) with
          ⟨frame, frameMember, named⟩
        have framePlaced := (walking.frames frame frameMember).placed
        rw [named, placed] at framePlaced
        have lower := walking.place_le_top frameMember
        rw [← Option.some.inj framePlaced] at lower
        exact absurd later (Nat.not_lt_of_le lower)

/-- A node whose children are all done lies on no cycle: the nodes that are done lead only to one
another, and the node itself is still in progress. -/
theorem not_onCycle_of_finished
    (walking : Walking store starts (⟨place, id, []⟩ :: below) found) : ¬ store.OnCycle id := by
  intro cycle
  rcases Relation.TransGen.head'_iff.mp cycle with ⟨child, first, path⟩
  have reachedDone : ∀ other, Relation.ReflTransGen store.LeadsTo child other →
      found.marks.get? other = some .done := by
    intro other steps
    induction steps with
    | refl => exact walking.children_done first
    | tail _ last ih => exact walking.closed _ _ ih last
  have inProgress := (walking.inProgress id).mpr (by simp)
  rw [reachedDone id path] at inProgress
  cases inProgress

/-- Finishing the top node of the stack. -/
theorem finish (walking : Walking store starts (⟨place, id, []⟩ :: below) found) :
    Walking store starts below (found.finish id) := by
  have dones : ∀ other, found.marks.get? other = some .done →
      (found.finish id).marks.get? other = some .done := by
    intro other marked
    rw [Expansion.marks_finish]
    by_cases same : other = id
    · rw [if_pos same]
    · rw [if_neg same, marked]
  have done_cases : ∀ other, (found.finish id).marks.get? other = some .done →
      other = id ∨ found.marks.get? other = some .done := by
    intro other marked
    rw [Expansion.marks_finish] at marked
    by_cases same : other = id
    · exact Or.inl same
    · rw [if_neg same] at marked
      exact Or.inr marked
  constructor
  case arena => exact walking.arena
  case marked =>
    intro other
    show _ ↔ (found.tree.place? other).isSome
    rw [Expansion.marks_finish, ← walking.marked]
    by_cases same : other = id
    · rw [if_pos same, same, (walking.inProgress id).mpr (by simp)]
      simp
    · rw [if_neg same]
  case stored => exact walking.stored
  case reached => exact walking.reached
  case inProgress =>
    intro other
    rw [Expansion.marks_finish]
    have distinct := walking.nodup_ids
    rw [List.map_cons, List.nodup_cons] at distinct
    by_cases same : other = id
    · rw [if_pos same, same]
      exact iff_of_false (by simp) distinct.1
    · rw [if_neg same, walking.inProgress, List.map_cons, List.mem_cons]
      exact or_iff_right same
  case frames =>
    intro frame member
    exact (walking.frames frame (List.mem_cons_of_mem _ member)).mono (fun _ _ same => same) dones
  case path => exact (List.pairwise_cons.mp walking.path).2
  case followed =>
    intro link
    have waits : Waiting (⟨place, id, []⟩ :: below) link ↔ Waiting below link := by
      simp [Waiting]
    rw [← waits]
    exact walking.followed link
  case closed =>
    intro other child marked leads
    rcases done_cases other marked with rfl | old
    · exact dones _ (walking.children_done leads)
    · exact dones _ (walking.closed other child old leads)
  case acyclic =>
    intro other marked
    rcases done_cases other marked with rfl | old
    · exact walking.not_onCycle_of_finished
    · exact walking.acyclic other old

end Finish

/-- A child in progress is reached from the top of the stack and reaches it. -/
theorem onCycle_of_inProgress {below : List Frame} {frame : Frame} {linked : LinkedNode}
    (walking : Walking store starts (frame :: below) found) (waits : linked ∈ frame.pending)
    (marked : found.marks.get? linked.node.id = some .inProgress) :
    store.OnCycle linked.node.id := by
  have last := walking.leadsTo_of_pending List.mem_cons_self waits
  rcases List.mem_map.mp ((walking.inProgress linked.node.id).mp marked) with ⟨held, member, named⟩
  rcases List.mem_cons.mp member with rfl | lower
  · rw [named] at last
    exact Relation.TransGen.single last
  · have above := (List.pairwise_cons.mp walking.path).1 _ (List.mem_map_of_mem lower)
    have climbs : Relation.TransGen store.LeadsTo linked.node.id frame.id := named ▸ above.2
    exact climbs.tail last

end Walking

/-! ## A whole walk -/

/-- A list names every stored node. -/
def WorkflowStore.ListedIn (store : WorkflowStore) (onFile : List NodeId) : Prop :=
  ∀ node ∈ store.nodes.rows, node.id ∈ onFile

theorem WorkflowStore.listedIn_nodeIds (store : WorkflowStore) : store.ListedIn store.nodeIds :=
  fun _ member => List.mem_map_of_mem member

/-- A walk adds nodes behind those that it has, and names no roots. -/
structure Expansion.Grows (found after : Expansion) : Prop where
  roots : after.tree.roots = found.tree.roots
  nodes : found.tree.nodes <+: after.tree.nodes

theorem Expansion.Grows.trans {first second third : Expansion} (before : first.Grows second)
    (behind : second.Grows third) : first.Grows third where
  roots := behind.roots.trans before.roots
  nodes := before.nodes.trans behind.nodes

/-- How a walk ends, and that it leaves the store as it is: all that was entered is done, or a
node on a cycle is named. -/
inductive WalkEnds (store : WorkflowStore) (starts : Node → Prop) (found : Expansion) :
    Except WorkflowError Expansion × WorkflowStore → Prop where
  | done {after : Expansion} (walked : Walking store starts [] after) (grows : found.Grows after) :
    WalkEnds store starts found (.ok after, store)
  | cycle {id : NodeId} (onCycle : store.OnCycle id) (reached : store.ReachedFrom starts id) :
    WalkEnds store starts found (.error (.cycleDetected id), store)

theorem WalkEnds.of_grows {next : Expansion}
    {answer : Except WorkflowError Expansion × WorkflowStore}
    (ends : WalkEnds store starts next answer) (grows : found.Grows next) :
    WalkEnds store starts found answer := by
  cases ends with
  | done walked later => exact .done walked (grows.trans later)
  | cycle onCycle reached => exact .cycle onCycle reached

namespace WorkflowTree

section Steps

variable {onFile : List NodeId} {below : List Frame} {place : Place} {id : NodeId} {link : Link}
  {child : Node} {pending : List LinkedNode}

theorem walk_inProgress (marked : found.marks.get? child.id = some .inProgress) :
    walk onFile (⟨place, id, ⟨link, child⟩ :: pending⟩ :: below) found =
      throw (.cycleDetected child.id) := by
  rw [walk]
  split <;> simp_all

theorem walk_done {childPlace : Place} (marked : found.marks.get? child.id = some .done)
    (placed : found.tree.place? child.id = some childPlace) :
    walk onFile (⟨place, id, ⟨link, child⟩ :: pending⟩ :: below) found =
      walk onFile (⟨place, id, pending⟩ :: below)
        { found with tree := found.tree.addEdge link place childPlace } := by
  rw [walk, ← addEdgeTo_of_place placed]
  split <;> simp_all

theorem outcome_walk_enter (fresh : found.marks.get? child.id = none) (filed : child.id ∈ onFile) :
    outcome (walk onFile (⟨place, id, ⟨link, child⟩ :: pending⟩ :: below) found) store =
      outcome
        (walk onFile
          (⟨found.tree.nextPlace, child.id, store.childLinks child.id⟩ ::
            ⟨place, id, pending⟩ :: below)
          { found.enter child with
            tree := (found.enter child).tree.addEdge link place found.tree.nextPlace })
        store := by
  rw [walk]
  split
  · simp_all
  · simp_all
  · rw [if_pos filed]
    exact WorkflowProgram.outcome_ask_bind rfl _

end Steps

/-- A walk that keeps to the invariant ends: with all that it entered done, or at a cycle.  No
child is passed over, so the end is the same for every list that names all stored nodes. -/
theorem walk_ends (walking : Walking store starts stack found) :
    ∃ answer, (∀ onFile, store.ListedIn onFile →
        outcome (walk onFile stack found) store = answer) ∧
      WalkEnds store starts found answer := by
  -- the induction is on the recursion of the walk for the list of exactly the stored nodes
  induction stack, found using walk.induct store.nodeIds with
  | case1 found =>
    refine ⟨(.ok found, store), ?_, .done walking ⟨rfl, List.prefix_refl _⟩⟩
    intro onFile _
    rw [walk, WorkflowProgram.outcome_pure]
  | case2 found place id below ih =>
    rcases ih walking.finish with ⟨answer, runs, ends⟩
    refine ⟨answer, ?_, ends.of_grows ⟨rfl, List.prefix_refl _⟩⟩
    intro onFile listed
    rw [walk]
    exact runs onFile listed
  | case3 found place id link child pending below marked =>
    have held := walking.placed_of_marked marked
    have cycle := walking.onCycle_of_inProgress List.mem_cons_self marked
    refine ⟨_, ?_, .cycle cycle (walking.reached_of_placed held)⟩
    intro onFile _
    rw [walk_inProgress marked, WorkflowProgram.outcome_throw]
  | case4 found place id link child pending below marked ih =>
    have held := walking.placed_of_marked marked
    rcases Option.isSome_iff_exists.mp held with ⟨childPlace, placed⟩
    rw [addEdgeTo_of_place placed] at ih
    have next := Walking.follow [] walking placed (Or.inl marked)
    rcases ih next with ⟨answer, runs, ends⟩
    refine ⟨answer, ?_, ends.of_grows ⟨rfl, List.prefix_refl _⟩⟩
    intro onFile listed
    rw [walk_done marked placed]
    exact runs onFile listed
  | case5 found place id link child pending below fresh onFile ih =>
    have top : Frame.mk place id (⟨link, child⟩ :: pending) ∈
        Frame.mk place id (⟨link, child⟩ :: pending) :: below := List.mem_cons_self
    have leads := walking.leadsTo_of_pending top List.mem_cons_self
    have member := WorkflowStore.mem_nodes_of_mem_childLinks
      (walking.mem_childLinks_of_pending top List.mem_cons_self)
    have reached := (walking.reached_of_placed (walking.placed_of_mem top)).step leads
    -- the new node is reached from the whole stack, by way of its top
    have fromStack : ∀ frame ∈ Frame.mk place id (⟨link, child⟩ :: pending) :: below,
        Relation.TransGen store.LeadsTo frame.id child.id := by
      intro frame frameMember
      rcases List.mem_cons.mp frameMember with rfl | lower
      · exact Relation.TransGen.single leads
      · have above := (List.pairwise_cons.mp walking.path).1 _ (List.mem_map_of_mem lower)
        exact above.2.tail leads
    have entered := walking.enter member fresh reached fromStack
    have childPlaced : (found.enter child).tree.place? child.id = some found.tree.nextPlace :=
      (place?_addNode _ _ _).trans (if_pos rfl)
    have later := walking.arena.lt_nextPlace (walking.frames _ top).placed
    have next := Walking.follow [⟨_, _, _⟩] entered childPlaced (Or.inr later)
    rcases ih _ next with ⟨answer, runs, ends⟩
    refine ⟨answer, ?_, ends.of_grows ⟨rfl, List.prefix_append _ _⟩⟩
    intro onFile listed
    rw [outcome_walk_enter fresh (listed child member)]
    exact runs onFile listed
  | case6 found place id link child pending below fresh unlisted =>
    have member := WorkflowStore.mem_nodes_of_mem_childLinks
      (walking.mem_childLinks_of_pending List.mem_cons_self List.mem_cons_self)
    exact absurd (store.listedIn_nodeIds child member) unlisted

end WorkflowTree

end NodeSteward
