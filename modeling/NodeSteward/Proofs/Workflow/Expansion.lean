import NodeSteward.Proofs.Workflow.Walk

/-!
# Expanding a version or a node

An expansion walks from one root after the other and keeps its marks in between.  No root of a
version is reached from another one, so each of them is still unmarked when its turn comes, and
none is skipped.  What the walks have found is described by the invariant of the walk with an
empty stack: everything that was entered is done.

From this both answers of an expansion are exact.  It names a node on a cycle if and only if a
cycle is reached from a root, and otherwise yields the graph that is reached: each node and each
link once, and every link between the places of its own ends.
-/

namespace NodeSteward

open WorkflowProgram (outcome)

variable {store : WorkflowStore} {onFile : List NodeId} {roots : List Node} {found : Expansion}

/-- What is found after walking from some roots: all that was entered is done, and the named
roots are these, in their order. -/
structure Expanded (store : WorkflowStore) (roots : List Node) (found : Expansion) : Prop where
  walked : Walking store (fun root => root ∈ roots) [] found
  rooted : found.tree.roots.map found.tree.record? = roots.map some

/-- How the walks from some roots end. -/
inductive RootsEnd (store : WorkflowStore) (roots : List Node) :
    Except WorkflowError Expansion × WorkflowStore → Prop where
  | done {after : Expansion} (expanded : Expanded store roots after) :
    RootsEnd store roots (.ok after, store)
  | cycle {id : NodeId} (onCycle : store.OnCycle id)
      (reached : store.ReachedFrom (fun root => root ∈ roots) id) :
    RootsEnd store roots (.error (.cycleDetected id), store)

namespace Expanded

theorem empty (store : WorkflowStore) : Expanded store [] .empty where
  walked := Walking.empty store _
  rooted := rfl

/-- When no walk is under way, every held node is done. -/
theorem done_of_placed (expanded : Expanded store roots found) {id : NodeId}
    (held : (found.tree.place? id).isSome) : found.marks.get? id = some .done := by
  rw [← expanded.walked.marked] at held
  rcases Option.isSome_iff_exists.mp held with ⟨mark, marked⟩
  cases mark with
  | done => exact marked
  | inProgress =>
    have onStack := (expanded.walked.inProgress id).mp marked
    cases onStack

/-- Every root has its place. -/
theorem placed_of_root (expanded : Expanded store roots found) {root : Node}
    (listed : root ∈ roots) : (found.tree.place? root.id).isSome := by
  have stands : some root ∈ found.tree.roots.map found.tree.record? := by
    rw [expanded.rooted]
    exact List.mem_map_of_mem listed
  rcases List.mem_map.mp stands with ⟨place, _, recorded⟩
  rw [(expanded.walked.arena.placed root.id place).mpr ⟨root, recorded, rfl⟩]
  rfl

/-- The held nodes are the reached ones: held nodes that are done lead to held nodes only. -/
theorem placed_iff (expanded : Expanded store roots found) {id : NodeId} :
    (found.tree.place? id).isSome ↔ store.ReachedFrom (fun root => root ∈ roots) id := by
  constructor
  · exact expanded.walked.reached_of_placed
  · rintro ⟨root, listed, path⟩
    induction path with
    | refl => exact expanded.placed_of_root listed
    | tail _ last ih =>
      have marked := expanded.walked.closed _ _ (expanded.done_of_placed ih) last
      exact expanded.walked.placed_of_marked marked

theorem not_onCycle (expanded : Expanded store roots found) {id : NodeId}
    (reached : store.ReachedFrom (fun root => root ∈ roots) id) : ¬ store.OnCycle id :=
  expanded.walked.acyclic id (expanded.done_of_placed (expanded.placed_iff.mpr reached))

/-- A root that the earlier ones do not reach has not been entered. -/
theorem unmarked (expanded : Expanded store roots found) {root : Node}
    (separate : ∀ earlier ∈ roots, ¬ store.Reaches earlier.id root.id) :
    found.marks.get? root.id = none := by
  rw [← Option.not_isSome_iff_eq_none, expanded.walked.marked, expanded.placed_iff]
  rintro ⟨earlier, listed, path⟩
  exact separate earlier listed path

end Expanded

namespace WorkflowTree

/-- A node that is held keeps its place while the graph grows. -/
theorem record?_of_grows {after : Expansion} (grows : found.Grows after) {place : Place}
    {node : Node} (stands : found.tree.record? place = some node) :
    after.tree.record? place = some node := by
  rcases grows.nodes with ⟨added, same⟩
  have inside := (List.getElem?_eq_some_iff.mp stands).1
  unfold record?
  rw [← same, List.getElem?_append_left inside]
  exact stands

theorem map_record?_of_grows {after : Expansion} (grows : found.Grows after)
    {places : List Place} {nodes : List Node}
    (stand : places.map found.tree.record? = nodes.map some) :
    places.map after.tree.record? = nodes.map some := by
  rw [← stand]
  refine List.map_congr_left ?_
  intro place member
  have recorded : found.tree.record? place ∈ nodes.map some := by
    rw [← stand]
    exact List.mem_map_of_mem member
  rcases List.mem_map.mp recorded with ⟨node, _, stands⟩
  rw [← stands]
  exact record?_of_grows grows stands.symm

theorem outcome_walkRoot {root : Node} (fresh : found.marks.get? root.id = none) :
    outcome (walkRoot onFile found root) store =
      outcome
        (walk onFile [⟨found.tree.nextPlace, root.id, store.childLinks root.id⟩]
          { found.enter root with
            tree := (found.enter root).tree.addRoot found.tree.nextPlace })
        store := by
  rw [walkRoot, fresh]
  exact WorkflowProgram.outcome_ask_bind rfl _

/-- Walking from one more root that the earlier ones do not reach. -/
theorem walkRoot_ends (expanded : Expanded store roots found) {root : Node}
    (member : root ∈ store.nodes.rows)
    (separate : ∀ earlier ∈ roots, ¬ store.Reaches earlier.id root.id) :
    ∃ answer, (∀ onFile, store.ListedIn onFile →
        outcome (walkRoot onFile found root) store = answer) ∧
      RootsEnd store (roots ++ [root]) answer := by
  have fresh := expanded.unmarked separate
  have more : Walking store (fun other => other ∈ roots ++ [root]) [] found :=
    expanded.walked.mono (fun other listed => List.mem_append_left _ listed)
  have reached : store.ReachedFrom (fun other => other ∈ roots ++ [root]) root.id :=
    WorkflowStore.ReachedFrom.root (List.mem_append_right _ (List.mem_singleton.mpr rfl))
  have started := (more.enter member fresh reached (by simp)).addRoot found.tree.nextPlace
  rcases walk_ends started with ⟨answer, runs, ends⟩
  refine ⟨answer, ?_, ?_⟩
  · intro onFile listed
    rw [outcome_walkRoot fresh]
    exact runs onFile listed
  · cases ends with
    | cycle onCycle fromRoots => exact .cycle onCycle fromRoots
    | done walked grows =>
      refine .done ⟨walked, ?_⟩
      rw [grows.roots]
      refine map_record?_of_grows grows ?_
      show (found.tree.roots ++ [found.tree.nextPlace]).map (found.tree.addNode root).record? = _
      rw [List.map_append, List.map_append, List.map_singleton, List.map_singleton,
        record?_addNode, if_pos rfl]
      congr 1
      have entered : found.Grows (found.enter root) := ⟨rfl, List.prefix_append _ _⟩
      exact map_record?_of_grows entered expanded.rooted

/-- Walking from roots that do not reach one another, the earlier ones of which are done. -/
theorem walkRoots_ends {earlier : List Node} (expanded : Expanded store earlier found)
    (stored : ∀ root ∈ roots, root ∈ store.nodes.rows)
    (separate : (earlier ++ roots).Pairwise
      (fun first second => ¬ store.Reaches first.id second.id)) :
    ∃ answer, (∀ onFile, store.ListedIn onFile →
        outcome (roots.foldlM (walkRoot onFile) found) store = answer) ∧
      RootsEnd store (earlier ++ roots) answer := by
  induction roots generalizing earlier found with
  | nil =>
    rw [List.append_nil]
    exact ⟨_, fun _ _ => rfl, .done expanded⟩
  | cons root rest ih =>
    have apart := List.pairwise_append.mp separate
    have first := walkRoot_ends expanded (stored root List.mem_cons_self)
      (fun other listed => apart.2.2 other listed root List.mem_cons_self)
    have regroup : earlier ++ root :: rest = (earlier ++ [root]) ++ rest := by simp
    rw [regroup] at separate ⊢
    rcases first with ⟨answer, walks, ends⟩
    cases ends with
    | done next =>
      rcases ih next (fun other listed => stored other (List.mem_cons_of_mem _ listed)) separate
        with ⟨last, runs, lastEnds⟩
      refine ⟨last, ?_, lastEnds⟩
      intro onFile listed
      rw [List.foldlM_cons, WorkflowProgram.outcome_bind_of_ok (walks onFile listed)]
      exact runs onFile listed
    | cycle onCycle reached =>
      refine ⟨_, ?_, .cycle onCycle
        (reached.mono (fun other listed => List.mem_append_left _ listed))⟩
      intro onFile listed
      rw [List.foldlM_cons, WorkflowProgram.outcome_bind_of_error (walks onFile listed)]

end WorkflowTree

/-- An expansion that started from `roots` fails exactly at the cycles that are reached. -/
structure FindsCycles (store : WorkflowStore) (roots : Node → Prop)
    (answer : Except WorkflowError WorkflowTree) : Prop where
  cycle_iff : (∃ id, answer = .error (.cycleDetected id)) ↔
    ∃ id, store.ReachedFrom roots id ∧ store.OnCycle id
  /-- The named node lies on such a cycle itself. -/
  named : ∀ id, answer = .error (.cycleDetected id) → store.ReachedFrom roots id ∧ store.OnCycle id
  ok_iff : (∃ tree, answer = .ok tree) ↔
    ¬ ∃ id, store.ReachedFrom roots id ∧ store.OnCycle id

/-- The graph that is reached from `roots`: everything that is reached, and nothing twice. -/
structure ExactGraph (store : WorkflowStore) (roots : Node → Prop) (tree : WorkflowTree) :
    Prop where
  nodes : ∀ node, node ∈ tree.nodes ↔
    node ∈ store.nodes.rows ∧ store.ReachedFrom roots node.id
  nodesOnce : (tree.nodes.map Node.id).Nodup
  links : ∀ link, link ∈ tree.edges.map TreeEdge.link ↔
    link ∈ store.links.rows ∧ store.ReachedFrom roots link.parent ∧
      (store.node? link.child).isSome
  linksOnce : (tree.edges.map TreeEdge.link).Nodup
  /-- An edge joins the places of its link's own parent and child. -/
  ends : ∀ edge ∈ tree.edges,
    tree.place? edge.link.parent = some edge.parent ∧ tree.place? edge.link.child = some edge.child
  /-- A node is found exactly where it stands. -/
  placed : ∀ id place,
    tree.place? id = some place ↔ ∃ node, tree.record? place = some node ∧ node.id = id
  /-- Every root has a place. -/
  rooted : tree.roots.map tree.record? = tree.rootNodes.map some
  rootNodes : ∀ node, node ∈ tree.rootNodes ↔ roots node
  ascending : tree.rootNodes.Pairwise (fun earlier later => earlier.id.raw < later.id.raw)

/-- Nothing else can go wrong. -/
theorem FindsCycles.ok_or_cycle {starts : Node → Prop} {answer : Except WorkflowError WorkflowTree}
    (finds : FindsCycles store starts answer) :
    (∃ tree, answer = .ok tree) ∨ ∃ id, answer = .error (.cycleDetected id) := by
  by_cases cycle : ∃ id, store.ReachedFrom starts id ∧ store.OnCycle id
  · exact Or.inr (finds.cycle_iff.mpr cycle)
  · exact Or.inl (finds.ok_iff.mpr cycle)

namespace Expanded

theorem rootNodes_eq (expanded : Expanded store roots found) : found.tree.rootNodes = roots := by
  have same : (found.tree.roots.map found.tree.record?).filterMap id =
      (roots.map some).filterMap id := by
    rw [expanded.rooted]
  rw [List.filterMap_map, List.filterMap_map] at same
  simpa [WorkflowTree.rootNodes] using same

theorem exactGraph (expanded : Expanded store roots found)
    (ascending : roots.Pairwise (fun earlier later => earlier.id.raw < later.id.raw)) :
    ExactGraph store (fun root => root ∈ roots) found.tree := by
  have arena := expanded.walked.arena
  constructor
  case nodes =>
    intro node
    constructor
    · intro member
      exact ⟨expanded.walked.stored node member, expanded.walked.reached node member⟩
    · rintro ⟨member, reached⟩
      rcases arena.isSome_place?_iff.mp (expanded.placed_iff.mpr reached) with
        ⟨held, heldMember, named⟩
      rw [Table.eq_of_mem_of_idOf member (expanded.walked.stored held heldMember) named.symm]
      exact heldMember
  case nodesOnce => exact arena.nodesOnce
  case links =>
    intro link
    rw [expanded.walked.followed, expanded.placed_iff]
    have noneWaits : ¬ Waiting [] link := by simp [Waiting]
    constructor
    · rintro ⟨listed, childStored, reached, _⟩
      exact ⟨listed, reached, childStored⟩
    · rintro ⟨listed, reached, childStored⟩
      exact ⟨listed, childStored, reached, noneWaits⟩
  case linksOnce => exact arena.linksOnce
  case ends => exact arena.ends
  case placed => exact arena.placed
  case rooted =>
    rw [expanded.rootNodes_eq]
    exact expanded.rooted
  case rootNodes =>
    intro node
    rw [expanded.rootNodes_eq]
  case ascending =>
    rw [expanded.rootNodes_eq]
    exact ascending

end Expanded

namespace WorkflowTree

theorem findsCycles_of_rootsEnd {answer : Except WorkflowError Expansion × WorkflowStore}
    (ends : RootsEnd store roots answer) :
    answer.2 = store ∧
      FindsCycles store (fun root => root ∈ roots) (answer.1.map Expansion.tree) := by
  cases ends with
  | done expanded =>
    have none : ¬ ∃ id, store.ReachedFrom (fun root => root ∈ roots) id ∧ store.OnCycle id := by
      rintro ⟨id, reached, onCycle⟩
      exact expanded.not_onCycle reached onCycle
    refine ⟨rfl, ⟨?_, ?_, ?_⟩⟩
    · exact iff_of_false (by rintro ⟨id, same⟩; cases same) none
    · intro id same
      cases same
    · exact iff_of_true ⟨_, rfl⟩ none
  | @cycle named onCycle reached =>
    have some : ∃ id, store.ReachedFrom (fun root => root ∈ roots) id ∧ store.OnCycle id :=
      ⟨named, reached, onCycle⟩
    refine ⟨rfl, ⟨?_, ?_, ?_⟩⟩
    · exact iff_of_true ⟨named, rfl⟩ some
    · intro id same
      cases same
      exact ⟨reached, onCycle⟩
    · exact iff_of_false (by rintro ⟨tree, same⟩; cases same) (not_not_intro some)

theorem exactGraph_of_rootsEnd {answer : Except WorkflowError Expansion × WorkflowStore}
    (ends : RootsEnd store roots answer)
    (ascending : roots.Pairwise (fun earlier later => earlier.id.raw < later.id.raw))
    (tree : WorkflowTree) (yields : answer.1.map Expansion.tree = .ok tree) :
    ExactGraph store (fun root => root ∈ roots) tree := by
  cases ends with
  | done expanded =>
    cases yields
    exact expanded.exactGraph ascending
  | cycle onCycle reached => cases yields

/-! ## The two expansions -/

theorem outcome_ofVersion (onFile : List NodeId) (version : VersionId) (store : WorkflowStore) :
    outcome (ofVersion onFile version) store =
      let walked := outcome ((store.rootNodes version).foldlM (walkRoot onFile) .empty) store
      (walked.1.map Expansion.tree, walked.2) := by
  have sorted : (store.rootNodes version).mergeSort
      (fun first second => first.id.raw ≤ second.id.raw) = store.rootNodes version := by
    apply List.mergeSort_of_pairwise
    refine (store.rootNodes_ascending version).imp ?_
    intro earlier later before
    exact decide_eq_true (Int.le_of_lt before)
  have asked : outcome (ofVersion onFile version) store = _ :=
    WorkflowProgram.outcome_ask_bind rfl _
  rw [asked, sorted]
  exact WorkflowProgram.outcome_bind_pure _ _ _

theorem outcome_ofNode_of_some {id : NodeId} {root : Node} (held : store.node? id = some root) :
    outcome (ofNode onFile id) store =
      let walked := outcome (walkRoot onFile .empty root) store
      (walked.1.map Expansion.tree, walked.2) := by
  have asked : outcome (ofNode onFile id) store = _ :=
    WorkflowProgram.outcome_ask_bind rfl _
  rw [asked, held]
  exact WorkflowProgram.outcome_bind_pure _ _ _

theorem outcome_ofNode_of_none {id : NodeId} (absent : store.node? id = none) :
    outcome (ofNode onFile id) store = (.error (.recursionInput id), store) := by
  have asked : outcome (ofNode onFile id) store = _ :=
    WorkflowProgram.outcome_ask_bind rfl _
  rw [asked, absent]
  rfl

/-- Expanding a version comes to an end, leaves the store as it is, and answers exactly. -/
theorem ofVersion_answers (store : WorkflowStore) (version : VersionId) :
    ∃ answer, (∀ onFile, store.ListedIn onFile →
        outcome (ofVersion onFile version) store = (answer, store)) ∧
      FindsCycles store (store.IsRoot version) answer ∧
      ∀ tree, answer = .ok tree → ExactGraph store (store.IsRoot version) tree := by
  have stored : ∀ root ∈ store.rootNodes version, root ∈ store.nodes.rows :=
    fun _ listed => (WorkflowStore.mem_rootNodes.mp listed).1
  rcases walkRoots_ends (Expanded.empty store) stored (store.rootNodes_separate version) with
    ⟨answer, runs, ends⟩
  rw [List.nil_append] at ends
  rcases findsCycles_of_rootsEnd ends with ⟨kept, finds⟩
  have graph := fun tree => exactGraph_of_rootsEnd ends (store.rootNodes_ascending version) tree
  rw [WorkflowStore.mem_rootNodes_eq] at finds graph
  refine ⟨_, ?_, finds, graph⟩
  intro onFile listed
  rw [outcome_ofVersion, runs onFile listed]
  exact Prod.ext rfl kept

/-- Expanding from a stored node is exact in the same way, with that node as the only root. -/
theorem ofNode_answers {id : NodeId} {root : Node} (held : store.node? id = some root) :
    ∃ answer, (∀ onFile, store.ListedIn onFile →
        outcome (ofNode onFile id) store = (answer, store)) ∧
      FindsCycles store (fun node => node = root) answer ∧
      ∀ tree, answer = .ok tree → ExactGraph store (fun node => node = root) tree := by
  have member := (WorkflowStore.node?_eq_some_iff.mp held).1
  rcases walkRoot_ends (Expanded.empty store) member
    (fun _ listed => absurd listed List.not_mem_nil) with ⟨answer, runs, ends⟩
  rw [List.nil_append] at ends
  rcases findsCycles_of_rootsEnd ends with ⟨kept, finds⟩
  have graph := fun tree => exactGraph_of_rootsEnd ends (List.pairwise_singleton _ root) tree
  simp only [List.mem_singleton] at finds graph
  refine ⟨_, ?_, finds, graph⟩
  intro onFile listed
  rw [outcome_ofNode_of_some held, runs onFile listed]
  exact Prod.ext rfl kept

/-- Both expansions always come to an end without touching the store.  They fail exactly at the
cycles that are reached, and for a node that is not stored.  Which list of nodes they are handed
does not matter, as long as it names all stored ones: nothing is ever passed over. -/
theorem expansions_find_cycles (store : WorkflowStore) :
    (∀ version : VersionId, ∃ answer,
      (∀ onFile, store.ListedIn onFile →
        outcome (ofVersion onFile version) store = (answer, store)) ∧
      FindsCycles store (store.IsRoot version) answer) ∧
    (∀ id : NodeId, ∃ answer,
      (∀ onFile, store.ListedIn onFile →
        outcome (ofNode onFile id) store = (answer, store)) ∧
      (answer = .error (.recursionInput id) ↔ store.node? id = none) ∧
      ∀ root, store.node? id = some root → FindsCycles store (fun node => node = root) answer) := by
  constructor
  · intro version
    rcases ofVersion_answers store version with ⟨answer, runs, finds, _⟩
    exact ⟨answer, runs, finds⟩
  · intro id
    cases held : store.node? id with
    | none =>
      refine ⟨_, fun _ _ => outcome_ofNode_of_none held, iff_of_true rfl rfl, ?_⟩
      intro root found
      cases found
    | some root =>
      rcases ofNode_answers held with ⟨answer, runs, finds, _⟩
      refine ⟨answer, runs, iff_of_false ?_ (by simp), ?_⟩
      · intro refused
        rcases finds.ok_or_cycle with ⟨tree, yields⟩ | ⟨named, fails⟩
        · rw [yields] at refused
          cases refused
        · rw [fails] at refused
          cases refused
      · intro other found
        rw [← Option.some.inj found]
        exact finds

/-- A graph that is returned is exactly the graph that is reached: from the roots of a version, or
from the one node that was asked for. -/
theorem expansions_exact (store : WorkflowStore) :
    (∀ (version : VersionId) (tree : WorkflowTree) (after : WorkflowStore),
      outcome (ofVersion store.nodeIds version) store = (.ok tree, after) →
        ExactGraph store (store.IsRoot version) tree) ∧
    (∀ (id : NodeId) (tree : WorkflowTree) (after : WorkflowStore),
      outcome (ofNode store.nodeIds id) store = (.ok tree, after) →
        ∃ root, store.node? id = some root ∧ ExactGraph store (fun node => node = root) tree) := by
  have listed := store.listedIn_nodeIds
  constructor
  · intro version tree after yields
    rcases ofVersion_answers store version with ⟨answer, runs, _, graph⟩
    rw [runs _ listed] at yields
    exact graph tree (congrArg Prod.fst yields)
  · intro id tree after yields
    cases held : store.node? id with
    | none =>
      rw [outcome_ofNode_of_none held] at yields
      cases yields
    | some root =>
      rcases ofNode_answers held with ⟨answer, runs, _, graph⟩
      rw [runs _ listed] at yields
      exact ⟨root, rfl, graph tree (congrArg Prod.fst yields)⟩

end WorkflowTree

/-- A node about which only its version matters. -/
def NewNode.plain (version : VersionId) : NewNode where
  versionId := version
  name := "step"
  type := .rebalance
  status := .active
  parameters := ""
  visibility := ""
  createdOn := ⟨0, 0⟩
  updatedOn := ⟨0, 0⟩

/-- A link about which only its ends matter. -/
def NewLink.plain (version : VersionId) (parent child : NodeId) : NewLink where
  versionId := version
  name := "link"
  parent := parent
  output := 0
  child := child
  input := 0
  visibility := ""
  createdOn := ⟨0, 0⟩
  updatedOn := ⟨0, 0⟩

/-- A store in which node 2 leads to node 5 by way of node 3 and by way of node 4. -/
def WorkflowStore.diamond : WorkflowStore :=
  { WorkflowStore.empty with
    issued := 9
    nodes :=
      { rows := [⟨.plain ⟨1⟩, ⟨2⟩⟩, ⟨.plain ⟨1⟩, ⟨3⟩⟩, ⟨.plain ⟨1⟩, ⟨4⟩⟩, ⟨.plain ⟨1⟩, ⟨5⟩⟩]
        ascending := by decide }
    links :=
      { rows := [⟨.plain ⟨1⟩ ⟨2⟩ ⟨3⟩, ⟨6⟩⟩, ⟨.plain ⟨1⟩ ⟨2⟩ ⟨4⟩, ⟨7⟩⟩, ⟨.plain ⟨1⟩ ⟨3⟩ ⟨5⟩, ⟨8⟩⟩,
          ⟨.plain ⟨1⟩ ⟨4⟩ ⟨5⟩, ⟨9⟩⟩]
        ascending := by decide } }

namespace WorkflowTree

/-- The diamond has no cycle, so its graph is returned, and it is the exact one. -/
theorem expansions_exact_diamond :
    ∃ tree, outcome (ofVersion WorkflowStore.diamond.nodeIds ⟨1⟩) .diamond =
        (.ok tree, .diamond) ∧
      ExactGraph .diamond (WorkflowStore.diamond.IsRoot ⟨1⟩) tree := by
  have rising : ∀ link ∈ WorkflowStore.diamond.links.rows,
      link.parent.raw < link.child.raw := by decide
  rcases ofVersion_answers .diamond ⟨1⟩ with ⟨answer, runs, finds, _⟩
  have acyclic : ¬ ∃ id, WorkflowStore.diamond.ReachedFrom (WorkflowStore.diamond.IsRoot ⟨1⟩) id ∧
      WorkflowStore.diamond.OnCycle id := by
    rintro ⟨id, _, cycle⟩
    exact WorkflowStore.not_onCycle_of_rising rising id cycle
  rcases finds.ok_iff.mpr acyclic with ⟨tree, yields⟩
  have run := runs _ WorkflowStore.diamond.listedIn_nodeIds
  rw [yields] at run
  exact ⟨tree, run, (expansions_exact .diamond).1 ⟨1⟩ tree .diamond run⟩

end WorkflowTree

end NodeSteward
