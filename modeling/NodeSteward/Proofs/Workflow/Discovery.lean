import Mathlib.Data.List.MinMax
import NodeSteward.Workflow.Trigger
import NodeSteward.Proofs.Workflow.Expansion
import NodeSteward.Proofs.Workflow.Numbering

/-!
# Which nodes are triggers

A workflow runs through one version: of its active versions the one with the highest number.  The
versions are read in the order in which the store lists them, and of equal numbers the one that
comes first is kept, so in the order of identifiers it is the one with the lowest identifier.
Where every number is taken once the order does not matter.

The triggers of a type are the active nodes of that type into which no link leads, in the versions
that the workflows run through.  They come by workflow and then by node.
-/

namespace NodeSteward

open WorkflowProgram (only_ask outcome outcome_ask_bind outcome_bind_of_ok)

namespace Version

variable {latest versions : List Version} {version : Version} {workflow : WorkflowId}

/-- Numbers of versions are compared by their value. -/
local instance : LinearOrder Int32 where
  le_refl := Int32.le_refl
  le_trans _ _ _ := Int32.le_trans
  lt_iff_le_not_ge first second := by
    rw [Int32.not_le, Int32.lt_iff_toInt_lt, Int32.le_iff_toInt_le]
    omega
  le_antisymm _ _ := Int32.le_antisymm
  le_total := Int32.le_total
  toDecidableEq := inferInstance
  toDecidableLE := inferInstance
  toDecidableLT := inferInstance

def numberOf (version : Version) : Int32 :=
  version.number

/-- Of the versions of a workflow the first one that no other outnumbers. -/
def leading? (versions : List Version) (workflow : WorkflowId) : Option Version :=
  (versions.filter (fun version => version.workflowId = workflow)).argmax numberOf

/-- The version that a list with one version for each workflow holds for this one. -/
def heldFor? (latest : List Version) (workflow : WorkflowId) : Option Version :=
  latest.find? (fun held => held.workflowId = workflow)

/-- One version for each workflow, in the order of the workflows. -/
def ByWorkflow (latest : List Version) : Prop :=
  latest.Pairwise (fun earlier later => earlier.workflowId.raw < later.workflowId.raw)

theorem ByWorkflow.nodup (sorted : ByWorkflow latest) : latest.Nodup := by
  refine sorted.imp ?_
  rintro first second before rfl
  exact lt_irrefl _ before

theorem heldFor?_cons (held : Version) (rest : List Version) :
    heldFor? (held :: rest) workflow =
      if held.workflowId = workflow then some held else heldFor? rest workflow := by
  rw [heldFor?, List.find?_cons]
  by_cases own : held.workflowId = workflow
  · rw [if_pos own, decide_eq_true own]
  · rw [if_neg own, decide_eq_false own]
    rfl

theorem heldFor?_eq_none (front : ∀ held ∈ latest, workflow.raw < held.workflowId.raw) :
    heldFor? latest workflow = none := by
  apply List.find?_eq_none.mpr
  intro held member same
  have before := front held member
  rw [of_decide_eq_true same] at before
  exact lt_irrefl _ before

theorem heldFor?_eq_some_iff (sorted : ByWorkflow latest) :
    heldFor? latest version.workflowId = some version ↔ version ∈ latest := by
  induction latest with
  | nil => exact iff_of_false nofun List.not_mem_nil
  | cons held rest ih =>
    rcases List.pairwise_cons.mp sorted with ⟨front, behind⟩
    rw [heldFor?_cons, List.mem_cons]
    split_ifs with own
    · refine ⟨fun found => Or.inl (Option.some.inj found).symm, ?_⟩
      rintro (rfl | later)
      · rfl
      · have before := front version later
        rw [own] at before
        exact absurd before (lt_irrefl _)
    · refine (ih behind).trans ⟨Or.inr, ?_⟩
      rintro (rfl | later)
      · exact absurd rfl own
      · exact later

theorem mem_insertLatest {other : Version} (member : other ∈ version.insertLatest latest) :
    other = version ∨ other ∈ latest := by
  induction latest with
  | nil => exact Or.inl (List.mem_singleton.mp member)
  | cons held rest ih =>
    rw [insertLatest] at member
    split_ifs at member
    · exact Or.inr member
    · exact (List.mem_cons.mp member).imp_right (List.mem_cons_of_mem _)
    · exact List.mem_cons.mp member
    · rcases List.mem_cons.mp member with rfl | later
      · exact Or.inr List.mem_cons_self
      · exact (ih later).imp_right (List.mem_cons_of_mem _)

theorem byWorkflow_insertLatest (version : Version) (sorted : ByWorkflow latest) :
    ByWorkflow (version.insertLatest latest) := by
  induction latest with
  | nil => exact List.pairwise_singleton _ _
  | cons held rest ih =>
    rcases List.pairwise_cons.mp sorted with ⟨front, behind⟩
    rw [insertLatest]
    split_ifs with same _ before
    · exact sorted
    · refine List.pairwise_cons.mpr ⟨?_, behind⟩
      rw [same]
      exact front
    · refine List.pairwise_cons.mpr ⟨?_, sorted⟩
      intro other member
      rcases List.mem_cons.mp member with rfl | later
      · exact before
      · exact before.trans (front other later)
    · refine List.pairwise_cons.mpr ⟨?_, ih behind⟩
      intro other member
      rcases mem_insertLatest member with rfl | later
      · have different : other.workflowId.raw ≠ held.workflowId.raw :=
          fun raw => same (Id.ext_raw raw)
        omega
      · exact front other later

/-- A version takes the place of its workflow unless one with no lower number is held there. -/
theorem heldFor?_insertLatest (version : Version) (sorted : ByWorkflow latest)
    (workflow : WorkflowId) :
    heldFor? (version.insertLatest latest) workflow =
      if version.workflowId = workflow then
        match heldFor? latest workflow with
        | none => some version
        | some held => if held.number < version.number then some version else some held
      else heldFor? latest workflow := by
  induction latest with
  | nil => exact heldFor?_cons version []
  | cons held rest ih =>
    rcases List.pairwise_cons.mp sorted with ⟨front, behind⟩
    rw [insertLatest]
    by_cases same : version.workflowId = held.workflowId
    · rw [if_pos same, same]
      by_cases kept : version.number ≤ held.number
      · by_cases own : held.workflowId = workflow
        · simp [kept, heldFor?_cons, own]
        · simp [kept, heldFor?_cons, own]
      · by_cases own : held.workflowId = workflow
        · simp [kept, not_le.mp kept, heldFor?_cons, same, own]
        · simp [kept, heldFor?_cons, same, own]
    · rw [if_neg same]
      by_cases before : version.workflowId.raw < held.workflowId.raw
      · -- the workflows ascend, so nothing is held for that of the version
        have absent : heldFor? (held :: rest) version.workflowId = none := by
          apply heldFor?_eq_none
          intro other member
          rcases List.mem_cons.mp member with rfl | later
          · exact before
          · exact before.trans (front other later)
        rw [if_pos before, heldFor?_cons version]
        by_cases own : version.workflowId = workflow
        · subst own
          rw [if_pos rfl, if_pos rfl, absent]
        · rw [if_neg own, if_neg own]
      · rw [if_neg before, heldFor?_cons held, heldFor?_cons held, ih behind]
        by_cases own : version.workflowId = workflow
        · have foreign : held.workflowId ≠ workflow := fun other => same (own.trans other.symm)
          rw [if_neg foreign, if_neg foreign]
        · rw [if_neg own, if_neg own]

theorem latestOfEach_concat (versions : List Version) (version : Version) :
    latestOfEach (versions ++ [version]) = version.insertLatest (latestOfEach versions) :=
  List.foldl_concat ..

theorem byWorkflow_latestOfEach (versions : List Version) :
    ByWorkflow (latestOfEach versions) := by
  induction versions using List.reverseRecOn with
  | nil => exact List.Pairwise.nil
  | append_singleton versions version ih =>
    rw [latestOfEach_concat]
    exact byWorkflow_insertLatest version ih

/-- The versions are read from the front, and each takes its place if it leads so far. -/
theorem heldFor?_latestOfEach (versions : List Version) (workflow : WorkflowId) :
    heldFor? (latestOfEach versions) workflow = leading? versions workflow := by
  induction versions using List.reverseRecOn with
  | nil => rfl
  | append_singleton versions version ih =>
    rw [latestOfEach_concat, heldFor?_insertLatest version (byWorkflow_latestOfEach versions), ih]
    unfold leading?
    rw [List.filter_append]
    by_cases own : version.workflowId = workflow
    · have kept : [version].filter (fun other => other.workflowId = workflow) = [version] := by
        simp [own]
      rw [if_pos own, kept, List.argmax_concat]
      cases (versions.filter _).argmax numberOf with
      | none => rfl
      | some held => rfl
    · have dropped : [version].filter (fun other => other.workflowId = workflow) = [] := by
        simp [own]
      rw [if_neg own, dropped, List.append_nil]

theorem mem_latestOfEach :
    version ∈ latestOfEach versions ↔ leading? versions version.workflowId = some version := by
  rw [← heldFor?_latestOfEach, heldFor?_eq_some_iff (byWorkflow_latestOfEach versions)]

/-- In the order of identifiers the first of two versions is the one with the lower identifier. -/
theorem idxOf_le_idxOf_iff {first second : Version}
    (ascending : versions.Pairwise (fun earlier later => earlier.id.raw < later.id.raw))
    (firstListed : first ∈ versions) (secondListed : second ∈ versions) :
    versions.idxOf first ≤ versions.idxOf second ↔ first.id.raw ≤ second.id.raw := by
  have before : ∀ {one other : Version}, one ∈ versions → other ∈ versions →
      versions.idxOf one < versions.idxOf other → one.id.raw < other.id.raw := by
    intro one other oneListed otherListed less
    have ordered := List.pairwise_iff_getElem.mp ascending _ _
      (List.idxOf_lt_length_iff.mpr oneListed) (List.idxOf_lt_length_iff.mpr otherListed) less
    rwa [List.getElem_idxOf, List.getElem_idxOf] at ordered
  rcases lt_trichotomy (versions.idxOf first) (versions.idxOf second) with less | same | greater
  · exact iff_of_true less.le (before firstListed secondListed less).le
  · rw [(List.idxOf_inj firstListed).mp same]
    exact iff_of_true le_rfl le_rfl
  · exact iff_of_false (not_le.mpr greater) (not_le.mpr (before secondListed firstListed greater))

theorem mem_filter_workflow :
    version ∈ versions.filter (fun other => decide (other.workflowId = workflow)) ↔
      version ∈ versions ∧ version.workflowId = workflow := by
  simp

theorem leading?_eq_some_iff
    (ascending : versions.Pairwise (fun earlier later => earlier.id.raw < later.id.raw)) :
    leading? versions version.workflowId = some version ↔
      version ∈ versions ∧ ∀ other ∈ versions, other.workflowId = version.workflowId →
        other.number < version.number ∨
          (other.number = version.number ∧ version.id.raw ≤ other.id.raw) := by
  have own := ascending.filter (fun other => decide (other.workflowId = version.workflowId))
  rw [leading?, List.argmax_eq_some_iff, mem_filter_workflow]
  constructor
  · rintro ⟨⟨member, _⟩, highest, first⟩
    refine ⟨member, ?_⟩
    intro other otherMember same
    have listed := mem_filter_workflow.mpr ⟨otherMember, same⟩
    rcases (highest other listed).lt_or_eq with less | equal
    · exact Or.inl less
    · refine Or.inr ⟨equal, ?_⟩
      apply (idxOf_le_idxOf_iff own (mem_filter_workflow.mpr ⟨member, rfl⟩) listed).mp
      exact first other listed equal.ge
  · rintro ⟨member, leads⟩
    refine ⟨⟨member, rfl⟩, ?_, ?_⟩
    · intro other listed
      rcases mem_filter_workflow.mp listed with ⟨otherMember, same⟩
      rcases leads other otherMember same with less | ⟨equal, _⟩
      · exact less.le
      · exact equal.le
    · intro other listed atLeast
      rcases mem_filter_workflow.mp listed with ⟨otherMember, same⟩
      apply (idxOf_le_idxOf_iff own (mem_filter_workflow.mpr ⟨member, rfl⟩) listed).mpr
      rcases leads other otherMember same with less | ⟨_, lowest⟩
      · exact absurd atLeast (not_le.mpr less)
      · exact lowest

/-- No two of the versions have the same number in one workflow. -/
def NumberedOnce (versions : List Version) : Prop :=
  ∀ first ∈ versions, ∀ second ∈ versions,
    first.workflowId = second.workflowId → first.number = second.number → first = second

theorem NumberedOnce.of_subset {others : List Version} (once : NumberedOnce versions)
    (part : others ⊆ versions) : NumberedOnce others :=
  fun first firstListed second secondListed =>
    once first (part firstListed) second (part secondListed)

/-- Where no number is taken twice, the place in the list is not asked for. -/
theorem leading?_eq_some_iff_of_numberedOnce (once : NumberedOnce versions) :
    leading? versions version.workflowId = some version ↔
      version ∈ versions ∧ ∀ other ∈ versions, other.workflowId = version.workflowId →
        other.number ≤ version.number := by
  rw [leading?]
  constructor
  · intro found
    refine ⟨(mem_filter_workflow.mp (List.argmax_mem found)).1, ?_⟩
    intro other member same
    show other.numberOf ≤ version.numberOf
    exact List.le_of_mem_argmax (mem_filter_workflow.mpr ⟨member, same⟩) found
  · rintro ⟨member, highest⟩
    have listed := mem_filter_workflow.mpr ⟨member, rfl⟩
    cases found : (versions.filter _).argmax numberOf with
    | none =>
      rw [List.argmax_eq_none.mp found] at listed
      exact absurd listed List.not_mem_nil
    | some other =>
      rcases mem_filter_workflow.mp (List.argmax_mem found) with ⟨otherMember, same⟩
      have equal : other.numberOf = version.numberOf :=
        le_antisymm (highest other otherMember same) (List.le_of_mem_argmax listed found)
      rw [once other otherMember version member same equal]

theorem latestOfEach_of_perm {others : List Version} (once : NumberedOnce versions)
    (relisted : others.Perm versions) : latestOfEach others = latestOfEach versions := by
  have sorted := byWorkflow_latestOfEach versions
  have otherSorted := byWorkflow_latestOfEach others
  have sameVersions : (latestOfEach others).Perm (latestOfEach versions) := by
    apply (List.perm_ext_iff_of_nodup otherSorted.nodup sorted.nodup).mpr
    intro version
    rw [mem_latestOfEach, mem_latestOfEach, leading?_eq_some_iff_of_numberedOnce once,
      leading?_eq_some_iff_of_numberedOnce (once.of_subset relisted.subset)]
    simp only [relisted.mem_iff]
  refine sameVersions.eq_of_pairwise ?_ otherSorted sorted
  intro first second _ _ before after
  exact absurd after before.asymm

end Version

/-! ## Eligible versions and their triggers -/

namespace WorkflowStore

variable {store : WorkflowStore} {type : NodeType}

/-- The version that a workflow runs through. -/
structure Eligible (store : WorkflowStore) (version : Version) : Prop where
  stored : version ∈ store.versions.rows
  active : version.status = .active
  /-- No other active version of the workflow has a higher number, and those that have the same
  number have a higher identifier. -/
  leads : ∀ other ∈ store.versions.rows, other.status = .active →
    other.workflowId = version.workflowId →
      other.number < version.number ∨
        (other.number = version.number ∧ version.id.raw ≤ other.id.raw)

/-- A node that may start its workflow. -/
structure Triggers (store : WorkflowStore) (type : NodeType) (node : Node) : Prop where
  active : node.status = .active
  typed : node.type = type
  root : ∃ version, store.Eligible version ∧ store.IsRoot version.id node

/-- The first node belongs to an earlier workflow, or to the same one and has the lower
identifier. -/
def Precedes (store : WorkflowStore) (first second : Node) : Prop :=
  ∃ one ∈ store.versions.rows, ∃ other ∈ store.versions.rows,
    one.id = first.versionId ∧ other.id = second.versionId ∧
      (one.workflowId.raw < other.workflowId.raw ∨
        (one.workflowId = other.workflowId ∧ first.id.raw < second.id.raw))

theorem mem_activeVersions {version : Version} :
    version ∈ store.activeVersions ↔ version ∈ store.versions.rows ∧ version.status = .active := by
  simp [activeVersions]

theorem mem_latestOfEach_iff_eligible {version : Version} :
    version ∈ Version.latestOfEach store.activeVersions ↔ store.Eligible version := by
  have ascending : store.activeVersions.Pairwise
      (fun earlier later => earlier.id.raw < later.id.raw) := store.versions.ascending.filter _
  rw [Version.mem_latestOfEach, Version.leading?_eq_some_iff ascending]
  simp only [mem_activeVersions]
  constructor
  · rintro ⟨⟨stored, active⟩, leads⟩
    exact ⟨stored, active, fun other otherStored otherActive =>
      leads other ⟨otherStored, otherActive⟩⟩
  · intro eligible
    exact ⟨⟨eligible.stored, eligible.active⟩, fun other listed =>
      eligible.leads other listed.1 listed.2⟩

/-- The active roots of a type in a version. -/
def triggersIn (store : WorkflowStore) (type : NodeType) (version : Version) : List Node :=
  (store.rootNodes version.id).filter (fun node => node.status = .active && node.type = type)

/-- The active roots of a type in the versions that the workflows run through. -/
def allTriggers (store : WorkflowStore) (type : NodeType) : List Node :=
  (Version.latestOfEach store.activeVersions).flatMap (store.triggersIn type)

theorem mem_triggersIn {version : Version} {node : Node} :
    node ∈ store.triggersIn type version ↔
      store.IsRoot version.id node ∧ node.status = .active ∧ node.type = type := by
  rw [triggersIn, List.mem_filter, mem_rootNodes, Bool.and_eq_true, decide_eq_true_eq,
    decide_eq_true_eq]

theorem ascending_triggersIn (store : WorkflowStore) (type : NodeType) (version : Version) :
    (store.triggersIn type version).Pairwise
      (fun earlier later => earlier.id.raw < later.id.raw) :=
  (store.rootNodes_ascending version.id).filter _

theorem mem_allTriggers {node : Node} :
    node ∈ store.allTriggers type ↔ store.Triggers type node := by
  rw [allTriggers, List.mem_flatMap]
  simp only [mem_latestOfEach_iff_eligible, mem_triggersIn]
  constructor
  · rintro ⟨version, eligible, root, active, typed⟩
    exact ⟨active, typed, version, eligible, root⟩
  · rintro ⟨active, typed, version, eligible, root⟩
    exact ⟨version, eligible, root, active, typed⟩

theorem stored_of_mem_allTriggers {node : Node} (found : node ∈ store.allTriggers type) :
    node ∈ store.nodes.rows := by
  rcases (mem_allTriggers.mp found).root with ⟨version, _, root⟩
  exact root.1

theorem precedes_allTriggers (store : WorkflowStore) (type : NodeType) :
    (store.allTriggers type).Pairwise store.Precedes := by
  have stored : ∀ {version}, version ∈ Version.latestOfEach store.activeVersions →
      version ∈ store.versions.rows := by
    intro version listed
    exact (mem_latestOfEach_iff_eligible.mp listed).stored
  have owns : ∀ {version node}, node ∈ store.triggersIn type version →
      version.id = node.versionId := by
    intro version node listed
    exact (mem_triggersIn.mp listed).1.2.1.symm
  apply List.pairwise_flatMap.mpr
  constructor
  · intro version listed
    refine (ascending_triggersIn store type version).imp_of_mem ?_
    intro first second firstListed secondListed before
    exact ⟨version, stored listed, version, stored listed, owns firstListed, owns secondListed,
      Or.inr ⟨rfl, before⟩⟩
  · refine (Version.byWorkflow_latestOfEach _).imp_of_mem ?_
    intro one other oneListed otherListed before first firstListed second secondListed
    exact ⟨one, stored oneListed, other, stored otherListed, owns firstListed, owns secondListed,
      Or.inl before⟩

theorem not_precedes_self (store : WorkflowStore) (node : Node) : ¬ store.Precedes node node := by
  rintro ⟨one, oneStored, other, otherStored, oneOwns, otherOwns, order⟩
  have same : one = other :=
    Table.eq_of_mem_of_idOf oneStored otherStored (oneOwns.trans otherOwns.symm)
  subst same
  rcases order with before | ⟨_, before⟩
  · exact lt_irrefl _ before
  · exact lt_irrefl _ before

theorem nodup_allTriggers (store : WorkflowStore) (type : NodeType) :
    ((store.allTriggers type).map Node.id).Nodup := by
  apply List.pairwise_map.mpr
  refine (precedes_allTriggers store type).imp_of_mem ?_
  intro first second firstListed secondListed precedes same
  have nodes : first = second :=
    Table.eq_of_mem_of_idOf (stored_of_mem_allTriggers firstListed)
      (stored_of_mem_allTriggers secondListed) same
  subst nodes
  exact store.not_precedes_self first precedes

/-- A node with its neighbours as the store joins them. -/
def viewOf (store : WorkflowStore) (node : Node) : NodeView where
  node := node
  parents := store.parentLinks node.id
  children := store.childLinks node.id

end WorkflowStore

/-- True for the calls that read nodes and their links. -/
def WorkflowCall.readsNodes : WorkflowCall → Bool
  | getNode _ | rootNodes _ | parentLinks _ | childLinks _ => true
  | _ => false

namespace NodeView

variable {store : WorkflowStore} {type : NodeType}

theorem outcome_load? (store : WorkflowStore) (id : NodeId) :
    outcome (load? id) store = (.ok ((store.node? id).map store.viewOf), store) := by
  rw [load?, outcome_ask_bind rfl]
  cases found : store.node? id with
  | none => rfl
  | some node =>
    have filed : node.id = id := (Table.get?_eq_some_iff.mp found).2
    subst filed
    rfl

theorem outcome_load?_of_mem {node : Node} (stored : node ∈ store.nodes.rows) :
    outcome (load? node.id) store = (.ok (some (store.viewOf node)), store) := by
  have found : store.node? node.id = some node := Table.get?_eq_some_iff.mpr ⟨stored, rfl⟩
  rw [outcome_load?, found]
  rfl

theorem outcome_loadAll {nodes : List Node} (stored : ∀ node ∈ nodes, node ∈ store.nodes.rows) :
    outcome (loadAll (nodes.map Node.id)) store = (.ok (nodes.map store.viewOf), store) := by
  induction nodes with
  | nil => rfl
  | cons node nodes ih =>
    have first := outcome_load?_of_mem (stored node List.mem_cons_self)
    have others := ih fun other later => stored other (List.mem_cons_of_mem _ later)
    rw [List.map_cons, loadAll, outcome_bind_of_ok first,
      outcome_bind_of_ok others]
    rfl

theorem outcome_triggersOf (type : NodeType) (version : Version) (store : WorkflowStore) :
    outcome (triggersOf type version) store =
      (.ok ((store.triggersIn type version).map store.viewOf), store) := by
  have sorted : (store.triggersIn type version).mergeSort
      (fun first second => first.id.raw ≤ second.id.raw) = store.triggersIn type version := by
    apply List.mergeSort_of_pairwise
    refine (store.ascending_triggersIn type version).imp ?_
    intro earlier later before
    exact decide_eq_true before.le
  rw [triggersOf, outcome_ask_bind rfl]
  show outcome (loadAll (((store.triggersIn type version).mergeSort _).map Node.id)) store = _
  rw [sorted]
  apply outcome_loadAll
  intro node listed
  exact (WorkflowStore.mem_triggersIn.mp listed).1.1

theorem outcome_triggersOfAll (type : NodeType) (versions : List Version) (store : WorkflowStore) :
    outcome (triggersOfAll type versions) store =
      (.ok ((versions.flatMap (store.triggersIn type)).map store.viewOf), store) := by
  induction versions with
  | nil => rfl
  | cons version versions ih =>
    rw [triggersOfAll, outcome_bind_of_ok (outcome_triggersOf type version store),
      outcome_bind_of_ok ih, List.flatMap_cons, List.map_append]
    rfl

theorem outcome_activeTriggers (type : NodeType) (store : WorkflowStore) :
    outcome (activeTriggers type) store =
      (.ok ((store.allTriggers type).map store.viewOf), store) := by
  rw [activeTriggers, outcome_ask_bind rfl]
  exact outcome_triggersOfAll type _ store

/-! ## Another order of the active versions -/

theorem only_load? (id : NodeId) : (load? id).run.Only (WorkflowCall.readsNodes ·) := by
  refine .exceptBind (only_ask rfl) ?_
  intro node
  cases node with
  | none => exact .done _
  | some node =>
    refine .exceptBind (only_ask rfl) fun parents => ?_
    exact .exceptBind (only_ask rfl) fun children => .done _

theorem only_loadAll (ids : List NodeId) :
    (loadAll ids).run.Only (WorkflowCall.readsNodes ·) := by
  induction ids with
  | nil => exact .done _
  | cons id ids ih =>
    exact .exceptBind (only_load? id) fun view => .exceptBind ih fun views => .done _

theorem only_triggersOfAll (type : NodeType) (versions : List Version) :
    (triggersOfAll type versions).run.Only (WorkflowCall.readsNodes ·) := by
  have one : ∀ version, (triggersOf type version).run.Only (WorkflowCall.readsNodes ·) :=
    fun version => .exceptBind (only_ask rfl) fun roots => only_loadAll _
  induction versions with
  | nil => exact .done _
  | cons version versions ih =>
    exact .exceptBind (one version) fun views => .exceptBind ih fun others => .done _

/-- Answers like the store, except that the active versions are listed as given. -/
def listingVersions (listing : List Version) : Handler workflowCalls WorkflowStore
  | .activeVersions, store => (.ok listing, store)
  | request, store => WorkflowStore.handler request store

theorem run_activeTriggers_listing (type : NodeType) (listing : List Version)
    (store : WorkflowStore) :
    (activeTriggers type).run.run (listingVersions listing) store =
      outcome (triggersOfAll type (Version.latestOfEach listing)) store := by
  show (triggersOfAll type (Version.latestOfEach listing)).run.run (listingVersions listing) store =
    (triggersOfAll type (Version.latestOfEach listing)).run.run WorkflowStore.handler store
  apply Program.Only.run_congr
  refine (only_triggersOfAll type _).mono ?_
  intro request reads
  cases request with
  | activeVersions => cases reads
  | _ => rfl

/-- Discovery finds the triggers of the eligible versions and nothing else: each once, by workflow
and then by node, and with the neighbours that loading the node alone gives it.  Where every number
is taken once in its workflow, it finds the same when the active versions are listed otherwise. -/
theorem active_triggers_exact (type : NodeType) (store : WorkflowStore) :
    ∃ views, outcome (activeTriggers type) store = (.ok views, store) ∧
      (∀ node, node ∈ views.map NodeView.node ↔ store.Triggers type node) ∧
      (views.map NodeView.id).Nodup ∧
      (views.map NodeView.node).Pairwise store.Precedes ∧
      (∀ view ∈ views, outcome (load? view.id) store = (.ok (some view), store)) ∧
      (store.NumbersOnce → ∀ listing, listing.Perm store.activeVersions →
        (activeTriggers type).run.run (listingVersions listing) store = (.ok views, store)) := by
  have nodes : ((store.allTriggers type).map store.viewOf).map NodeView.node =
      store.allTriggers type := by
    rw [List.map_map]
    exact List.map_id _
  refine ⟨_, outcome_activeTriggers type store, ?_, ?_, ?_, ?_, ?_⟩
  · intro node
    rw [nodes]
    exact WorkflowStore.mem_allTriggers
  · rw [List.map_map]
    exact store.nodup_allTriggers type
  · rw [nodes]
    exact store.precedes_allTriggers type
  · intro view listed
    rcases List.mem_map.mp listed with ⟨node, found, rfl⟩
    exact outcome_load?_of_mem (WorkflowStore.stored_of_mem_allTriggers found)
  · intro once listing relisted
    have activeOnce : Version.NumberedOnce store.activeVersions :=
      Version.NumberedOnce.of_subset once (List.filter_subset_self _)
    rw [run_activeTriggers_listing, Version.latestOfEach_of_perm activeOnce relisted]
    exact outcome_triggersOfAll type _ store

/-- The first workflow has two active versions and the second one has one. -/
def twoWorkflows : WorkflowStore :=
  WorkflowEdit.applyAll .empty <| WorkflowEdit.atOnce
    [.createNamed "fees", .createNamed "swaps", .cloneOrCreateVersion ⟨1⟩ 7 "new",
      .cloneOrCreateVersion ⟨1⟩ 2 "old", .cloneOrCreateVersion ⟨2⟩ 1 "only", .addNode (.plain ⟨5⟩),
      .addNode (.plain ⟨3⟩), .addNode (.plain ⟨3⟩), .addNode (.plain ⟨4⟩),
      .addLink (.plain ⟨3⟩ ⟨7⟩ ⟨8⟩), .releaseOf ⟨1⟩ 7 ⟨3⟩, .releaseOf ⟨1⟩ 2 ⟨4⟩,
      .releaseOf ⟨2⟩ 1 ⟨5⟩]

theorem active_triggers_exact_twoWorkflows :
    twoWorkflows.NumbersOnce ∧
      twoWorkflows.activeVersions.reverse.map Version.id = [⟨5⟩, ⟨4⟩, ⟨3⟩] ∧
      ∃ views, views.map NodeView.id = [⟨7⟩, ⟨6⟩] ∧
        (activeTriggers .rebalance).run.run
          (listingVersions twoWorkflows.activeVersions.reverse) twoWorkflows =
            (.ok views, twoWorkflows) := by
  have once : twoWorkflows.NumbersOnce := by decide +kernel
  have ids : ((twoWorkflows.allTriggers .rebalance).map twoWorkflows.viewOf).map NodeView.id =
      [⟨7⟩, ⟨6⟩] := by decide +kernel
  rcases active_triggers_exact .rebalance twoWorkflows with
    ⟨views, yields, _, _, _, _, independent⟩
  rw [outcome_activeTriggers] at yields
  cases yields
  exact ⟨once, by decide +kernel, _, ids, independent once _ (List.reverse_perm _)⟩

end NodeView

end NodeSteward
