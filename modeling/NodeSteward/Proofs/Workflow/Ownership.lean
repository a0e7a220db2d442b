import NodeSteward.Proofs.Workflow.Consistency

/-!
# Owners and identifiers

Every version belongs to a stored workflow, and every node and every link to a stored version.
An insert checks the owner, an update never changes it, and a delete takes along all that it owns:
the workflow its versions, a version its nodes and the links that carry it.

One counter numbers the records of all four tables.  It only goes up, so what a history of edits
hands out is numbered in ascending order, and a number that was deleted does not come back.
-/

namespace NodeSteward

open WorkflowProgram (ask outcome)

namespace WorkflowStore

variable {store : WorkflowStore}

/-- The owner of every record is on file. -/
structure Owned (store : WorkflowStore) : Prop where
  versions : ∀ version ∈ store.versions.rows, store.workflows.contains version.workflowId = true
  nodes : ∀ node ∈ store.nodes.rows, store.versions.contains node.versionId = true
  links : ∀ link ∈ store.links.rows, store.versions.contains link.versionId = true

namespace Owned

theorem empty : WorkflowStore.empty.Owned where
  versions _ member := absurd member List.not_mem_nil
  nodes _ member := absurd member List.not_mem_nil
  links _ member := absurd member List.not_mem_nil

theorem withoutNodes (owned : store.Owned) (gone : NodeId → Bool) :
    (store.withoutNodes gone).Owned where
  versions := owned.versions
  nodes node member := owned.nodes node (Table.mem_rows_filter.mp member).1
  links link member := owned.links link (Table.mem_rows_filter.mp member).1

/-- What belongs to the removed versions goes with them. -/
theorem withoutVersions (owned : store.Owned) (gone : VersionId → Bool) :
    (store.withoutVersions gone).Owned := by
  have kept : ∀ id, store.versions.contains id = true → gone id = false →
      (store.withoutVersions gone).versions.contains id = true :=
    fun id => contains_withoutVersions
  constructor
  · intro version member
    exact owned.versions version (Table.mem_rows_filter.mp member).1
  · intro node member
    rcases mem_nodes_withoutVersions.mp member with ⟨listed, spared⟩
    exact kept _ (owned.nodes node listed) spared
  · intro link member
    rcases Table.mem_rows_filter.mp member with ⟨inner, spared⟩
    rw [Bool.not_eq_true'] at spared
    exact kept _ (owned.links link (Table.mem_rows_filter.mp inner).1) spared

/-- No version is left that belongs to the deleted workflow. -/
theorem withoutWorkflow (owned : store.Owned) (id : WorkflowId) :
    Owned { store.withoutVersions (store.ownsVersion id) with
      workflows := store.workflows.erase id } := by
  have rest := owned.withoutVersions (store.ownsVersion id)
  refine ⟨?_, rest.nodes, rest.links⟩
  intro version member
  rcases Table.mem_rows_filter.mp member with ⟨listed, spared⟩
  have found : store.version? version.id = some version := Table.get?_eq_some_iff.mpr ⟨listed, rfl⟩
  have foreign : version.workflowId ≠ id := by
    intro same
    simp [ownsVersion, found, same] at spared
  apply Table.contains_filter (owned.versions version listed)
  intro workflow filed
  rw [← filed] at foreign
  exact decide_eq_true foreign

/-- Rewriting a version in place, without giving it to another workflow. -/
theorem writeVersion (owned : store.Owned) (id : VersionId) {change : Version → Version}
    (keeps : ∀ held, Filed.idOf (change held) = (Filed.idOf held : VersionId))
    (owner : ∀ held, (change held).workflowId = held.workflowId) :
    Owned { store with versions := store.versions.modify id change keeps } where
  versions version member := by
    rcases (Table.mem_rows_modify keeps).mp member with ⟨held, old, rfl⟩
    have same : (if Filed.idOf held = id then change held else held).workflowId =
        held.workflowId := by
      split
      · exact owner held
      · rfl
    rw [same]
    exact owned.versions held old
  nodes node member := (Table.contains_modify keeps).mpr (owned.nodes node member)
  links link member := (Table.contains_modify keeps).mpr (owned.links link member)

/-- Every change keeps the owners of all records on file. -/
theorem of_changes {after : WorkflowStore} {edit : WorkflowEdit} (owned : store.Owned)
    (changes : store.Changes edit after) : after.Owned := by
  cases changes with
  | nothing => exact owned
  | workflowAdded =>
    refine ⟨?_, owned.nodes, owned.links⟩
    intro version member
    exact Table.contains_insert.mpr (Or.inr (owned.versions version member))
  | workflowWritten given change keeps =>
    refine ⟨?_, owned.nodes, owned.links⟩
    intro version member
    exact (Table.contains_modify keeps).mpr (owned.versions version member)
  | workflowDeleted id => exact owned.withoutWorkflow id
  | versionAdded version name held =>
    constructor
    · intro other member
      rcases Table.mem_rows_insert.mp member with rfl | ⟨old, _⟩
      · exact held
      · exact owned.versions other old
    · intro node member
      exact Table.contains_insert.mpr (Or.inr (owned.nodes node member))
    · intro link member
      exact Table.contains_insert.mpr (Or.inr (owned.links link member))
  | versionWritten given change keeps owner => exact owned.writeVersion given.id keeps owner
  | versionDeleted id => exact owned.withoutVersions _
  | nodeAdded given node same held =>
    refine ⟨owned.versions, ?_, owned.links⟩
    intro other member
    rcases Table.mem_rows_insert.mp member with rfl | ⟨old, _⟩
    · rw [← same] at held
      exact held
    · exact owned.nodes other old
  | nodeWritten given change keeps owner =>
    refine ⟨owned.versions, ?_, owned.links⟩
    intro node member
    rcases (Table.mem_rows_modify keeps).mp member with ⟨held, old, rfl⟩
    split
    · rw [owner]
      exact owned.nodes held old
    · exact owned.nodes held old
  | nodeDeleted id => exact owned.withoutNodes _
  | linkAdded given link same parent =>
    refine ⟨owned.versions, owned.nodes, ?_⟩
    intro other member
    rcases Table.mem_rows_insert.mp member with rfl | ⟨old, _⟩
    · rcases parent with ⟨node, listed, _, placed⟩
      have held := owned.nodes node listed
      rw [placed, ← same.1] at held
      exact held
    · exact owned.links other old
  | linkWritten given change keeps owner =>
    refine ⟨owned.versions, owned.nodes, ?_⟩
    intro link member
    rcases (Table.mem_rows_modify keeps).mp member with ⟨held, old, rfl⟩
    split
    · rw [owner]
      exact owned.links held old
    · exact owned.links held old
  | linkDeleted id =>
    exact ⟨owned.versions, owned.nodes,
      fun link member => owned.links link (Table.mem_rows_erase.mp member).1⟩
  | logAdded => exact ⟨owned.versions, owned.nodes, owned.links⟩

theorem applyAll (edits : List (Timestamp × WorkflowEdit)) :
    (WorkflowEdit.applyAll WorkflowStore.empty edits).Owned :=
  WorkflowEdit.applyAll_of_changes (fun _ _ _ owned changes => owned.of_changes changes) edits empty

end Owned

/-! ## Identifiers -/

/-- A record of the given kind is on file under the given identifier. -/
def OnFile (store : WorkflowStore) : (Σ kind, Id kind) → Prop
  | ⟨.workflow, id⟩ => store.workflows.contains id = true
  | ⟨.version, id⟩ => store.versions.contains id = true
  | ⟨.node, id⟩ => store.nodes.contains id = true
  | ⟨.link, id⟩ => store.links.contains id = true
  | ⟨.channel, _⟩ => False

/-- What an edit puts on file: nothing new, or a record under the identifier that is next. -/
structure Issues (store : WorkflowStore) (handed : Option (Σ kind, Id kind))
    (after : WorkflowStore) : Prop where
  counted : after.issued = store.issued + handed.toList.length
  next : ∀ entry, handed = some entry → entry.2 = store.nextId entry.1
  onFile : ∀ entry, after.OnFile entry → store.OnFile entry ∨ handed = some entry

namespace Issues

/-- Where nothing new comes in, every table holds at most what it held. -/
theorem of_tables {after : WorkflowStore} (counted : after.issued = store.issued)
    (workflows : ∀ id, after.workflows.contains id = true → store.workflows.contains id = true)
    (versions : ∀ id, after.versions.contains id = true → store.versions.contains id = true)
    (nodes : ∀ id, after.nodes.contains id = true → store.nodes.contains id = true)
    (links : ∀ id, after.links.contains id = true → store.links.contains id = true) :
    store.Issues none after where
  counted := counted
  next _ handed := nomatch handed
  onFile := by
    rintro ⟨kind, id⟩ held
    apply Or.inl
    cases kind with
    | workflow => exact workflows id held
    | version => exact versions id held
    | node => exact nodes id held
    | link => exact links id held
    | channel => exact held

theorem nothing : store.Issues none store :=
  of_tables rfl (fun _ => id) (fun _ => id) (fun _ => id) (fun _ => id)

/-- A record under the next identifier, whichever table it goes to. -/
theorem of_insert {after : WorkflowStore} {kind : IdKind}
    (counted : after.issued = store.issued + 1)
    (onFile : ∀ entry, after.OnFile entry →
      store.OnFile entry ∨ ⟨kind, store.nextId kind⟩ = entry) :
    store.Issues (some ⟨kind, store.nextId kind⟩) after where
  counted := counted
  next := by
    rintro _ ⟨⟩
    rfl
  onFile entry held := (onFile entry held).imp id (congrArg some)

theorem held_or_next {kind : IdKind} {ρ : Type} [Filed kind ρ] {table : Table ρ} {row : ρ}
    {id : Id kind} (next : Filed.idOf row = store.nextId kind)
    (held : (table.insert row).contains id = true) :
    table.contains id = true ∨ (⟨kind, store.nextId kind⟩ : Σ kind, Id kind) = ⟨kind, id⟩ := by
  rcases Table.contains_insert.mp held with rfl | old
  · exact Or.inr (by rw [next])
  · exact Or.inl old

theorem insertWorkflow (workflow : NewWorkflow) :
    store.Issues (some ⟨.workflow, (store.insertWorkflow workflow).1.id⟩)
      (store.insertWorkflow workflow).2 := by
  apply of_insert rfl
  rintro ⟨kind, id⟩ held
  cases kind with
  | workflow => exact held_or_next rfl held
  | _ => exact Or.inl held

theorem insertVersion (version : NewVersion) :
    store.Issues ((store.insertVersion version).1.toOption.map (fun stored => ⟨_, stored.id⟩))
      (store.insertVersion version).2 := by
  unfold WorkflowStore.insertVersion
  split
  · exact nothing
  · split
    · exact nothing
    · apply of_insert rfl
      rintro ⟨kind, id⟩ held
      cases kind with
      | version => exact held_or_next rfl held
      | _ => exact Or.inl held

theorem insertNode (node : NewNode) :
    store.Issues ((store.insertNode node).1.toOption.map (fun stored => ⟨_, stored.id⟩))
      (store.insertNode node).2 := by
  unfold WorkflowStore.insertNode
  split
  · apply of_insert rfl
    rintro ⟨kind, id⟩ held
    cases kind with
    | node => exact held_or_next rfl held
    | _ => exact Or.inl held
  · exact nothing

theorem insertLink (link : NewLink) :
    store.Issues ((store.insertLink link).1.toOption.map (fun stored => ⟨_, stored.id⟩))
      (store.insertLink link).2 := by
  unfold WorkflowStore.insertLink
  split
  · apply of_insert rfl
    rintro ⟨kind, id⟩ held
    cases kind with
    | link => exact held_or_next rfl held
    | _ => exact Or.inl held
  · exact nothing

end Issues

end WorkflowStore

namespace WorkflowEdit

variable {store : WorkflowStore}

/-- The identifier of the record that an edit made, if it made one. -/
def handedOut? : (edit : WorkflowEdit) → Except WorkflowError edit.Value → Option (Σ kind, Id kind)
  | createWorkflow _, answer => answer.toOption.map (fun workflow => ⟨_, workflow.id⟩)
  | cloneOrCreateVersion _ _ _, answer => answer.toOption.map (fun version => ⟨_, version.id⟩)
  | addNode _, answer => answer.toOption.map (fun node => ⟨_, node.id⟩)
  | addLink _, answer => answer.toOption.map (fun link => ⟨_, link.id⟩)
  | _, _ => none

/-- True for the edits that make a record. -/
def makes : WorkflowEdit → Bool
  | createWorkflow _ | cloneOrCreateVersion _ _ _ | addNode _ | addLink _ => true
  | _ => false

/-- The identifiers that a history of edits hands out, in their order. -/
def handedOut : WorkflowStore → List (Timestamp × WorkflowEdit) → List (Σ kind, Id kind)
  | _, [] => []
  | store, (now, edit) :: edits =>
    (edit.handedOut? (outcome (edit.program now) store).1).toList ++
      handedOut (edit.apply store now) edits

/-- Changes of edits that make no record. -/
theorem issues_of_changes {after : WorkflowStore} {edit : WorkflowEdit}
    (makesNone : edit.makes = false) (changes : store.Changes edit after) :
    store.Issues none after := by
  cases changes with
  | nothing => exact .nothing
  | workflowAdded => cases makesNone
  | versionAdded => cases makesNone
  | nodeAdded => cases makesNone
  | linkAdded => cases makesNone
  | workflowWritten given change keeps =>
    exact .of_tables rfl (fun _ => (Table.contains_modify keeps).mp) (fun _ => id) (fun _ => id)
      (fun _ => id)
  | versionWritten given change keeps =>
    exact .of_tables rfl (fun _ => id) (fun _ => (Table.contains_modify keeps).mp) (fun _ => id)
      (fun _ => id)
  | nodeWritten given change keeps =>
    exact .of_tables rfl (fun _ => id) (fun _ => id) (fun _ => (Table.contains_modify keeps).mp)
      (fun _ => id)
  | linkWritten given change keeps =>
    exact .of_tables rfl (fun _ => id) (fun _ => id) (fun _ => id)
      (fun _ => (Table.contains_modify keeps).mp)
  | workflowDeleted =>
    exact .of_tables rfl (fun _ => Table.contains_of_filter) (fun _ => Table.contains_of_filter)
      (fun _ => Table.contains_of_filter)
      (fun _ held => Table.contains_of_filter (Table.contains_of_filter held))
  | versionDeleted =>
    exact .of_tables rfl (fun _ => id) (fun _ => Table.contains_of_filter)
      (fun _ => Table.contains_of_filter)
      (fun _ held => Table.contains_of_filter (Table.contains_of_filter held))
  | nodeDeleted =>
    exact .of_tables rfl (fun _ => id) (fun _ => id) (fun _ => Table.contains_of_filter)
      (fun _ => Table.contains_of_filter)
  | linkDeleted =>
    exact .of_tables rfl (fun _ => id) (fun _ => id) (fun _ => id)
      (fun _ => Table.contains_of_filter)
  | logAdded => exact .of_tables rfl (fun _ => id) (fun _ => id) (fun _ => id) (fun _ => id)

theorem handedOut?_of_makes_eq_false {edit : WorkflowEdit} (makesNone : edit.makes = false)
    (answer : Except WorkflowError edit.Value) : edit.handedOut? answer = none := by
  cases edit with
  | createWorkflow => cases makesNone
  | cloneOrCreateVersion => cases makesNone
  | addNode => cases makesNone
  | addLink => cases makesNone
  | _ => rfl

theorem toOption_mapError {ε φ α : Type} (name : ε → φ) (answer : Except ε α) :
    (answer.mapError name).toOption = answer.toOption := by
  cases answer <;> rfl

/-- What an edit answers names the record that it put on file. -/
theorem apply_issues (store : WorkflowStore) (now : Timestamp) (edit : WorkflowEdit) :
    store.Issues (edit.handedOut? (outcome (edit.program now) store).1) (edit.apply store now) := by
  by_cases makesNone : edit.makes = false
  · rw [handedOut?_of_makes_eq_false makesNone]
    exact issues_of_changes makesNone (apply_changes store now edit)
  show store.Issues (edit.handedOut? (outcome (edit.program now) store).1)
    (outcome (edit.program now) store).2
  cases edit with
  | createWorkflow given => exact .insertWorkflow _
  | cloneOrCreateVersion workflowId number name =>
    rcases outcome_copySource store workflowId number with ⟨source, found⟩
    have run : outcome ((cloneOrCreateVersion workflowId number name).program now) store = _ :=
      WorkflowProgram.outcome_bind_of_ok found _
    rw [run]
    cases source with
    | some held => exact .nothing
    | none =>
      have inserted : store.Issues _ _ := .insertVersion
        { workflowId, number, name := now.nameOr name, status := .inactive, createdOn := now,
          updatedOn := now }
      rw [← toOption_mapError WorkflowError.store] at inserted
      exact inserted
  | addNode given =>
    show store.Issues ((outcome (Node.add now given) store).1.toOption.map _)
      (outcome (Node.add now given) store).2
    unfold Node.add
    cases given.checkParameters none with
    | error error => exact .nothing
    | ok parameters =>
      have inserted : store.Issues _ _ := .insertNode
        { given with name := now.nameOr given.name, createdOn := now, updatedOn := now }
      rw [← toOption_mapError WorkflowError.store] at inserted
      exact inserted
  | addLink given =>
    show store.Issues ((outcome (Link.add now given) store).1.toOption.map _)
      (outcome (Link.add now given) store).2
    unfold Link.add
    rcases given.outcome_checkEnds store with ⟨_, _, passed⟩ | ⟨_, error, failed⟩
    · rw [WorkflowProgram.outcome_bind_of_ok passed]
      have inserted : store.Issues _ _ := .insertLink
        { given with name := now.nameOr given.name, createdOn := now, updatedOn := now }
      rw [← toOption_mapError WorkflowError.store] at inserted
      exact inserted
    · rw [WorkflowProgram.outcome_bind_of_error failed]
      exact .nothing
  | _ => exact absurd rfl makesNone

/-- A history numbers what it hands out without gaps. -/
theorem map_raw_handedOut (store : WorkflowStore) (edits : List (Timestamp × WorkflowEdit)) :
    (handedOut store edits).map (fun entry => entry.2.raw) =
      (List.range' (store.issued + 1) (handedOut store edits).length).map Int.ofNat := by
  induction edits generalizing store with
  | nil => rfl
  | cons edit edits ih =>
    rcases edit with ⟨now, edit⟩
    have issues := apply_issues store now edit
    have later := ih (edit.apply store now)
    rw [issues.counted] at later
    rw [handedOut]
    cases handed : edit.handedOut? (outcome (edit.program now) store).1 with
    | none =>
      rw [handed] at later
      exact later
    | some entry =>
      rw [handed] at later
      have number : entry.2.raw = Int.ofNat (store.issued + 1) :=
        congrArg Id.raw (issues.next entry handed)
      simp only [Option.toList_some, List.singleton_append, List.map_cons, List.length_cons,
        List.range'_succ]
      rw [number]
      exact congrArg _ later

/-- What is on file was handed out, unless it was there before. -/
theorem onFile_applyAll (store : WorkflowStore) (edits : List (Timestamp × WorkflowEdit))
    (entry : Σ kind, Id kind) (held : (applyAll store edits).OnFile entry) :
    store.OnFile entry ∨ entry ∈ handedOut store edits := by
  induction edits generalizing store with
  | nil => exact Or.inl held
  | cons edit edits ih =>
    rcases edit with ⟨now, edit⟩
    rw [handedOut, List.mem_append]
    rcases ih (edit.apply store now) held with here | later
    · rcases (apply_issues store now edit).onFile entry here with before | handed
      · exact Or.inl before
      · exact Or.inr (Or.inl (Option.mem_toList.mpr handed))
    · exact Or.inr (Or.inr later)

theorem not_onFile_empty (entry : Σ kind, Id kind) : ¬ WorkflowStore.empty.OnFile entry := by
  rcases entry with ⟨kind, id⟩
  cases kind <;> exact nofun

/-- After every history of edits: rows are filed under their own identifiers; no number was handed
out twice, by whichever table, the numbers are 1 up to their count, and all that is on file was
handed out; the owner of every record is on file, and so are both ends of every link, in one
version. -/
theorem edited_store_intact (edits : List (Timestamp × WorkflowEdit)) :
    let store := applyAll .empty edits
    let handed := handedOut .empty edits
    (store.workflows.FiledByOwnId ∧ store.versions.FiledByOwnId ∧ store.nodes.FiledByOwnId ∧
        store.links.FiledByOwnId) ∧
      (handed.map (fun entry => entry.2.raw)).Nodup ∧
      (∀ entry ∈ handed, 1 ≤ entry.2.raw ∧ entry.2.raw ≤ handed.length) ∧
      (∀ entry, store.OnFile entry → entry ∈ handed) ∧
      store.Owned ∧
      ∀ link ∈ store.links.rows, store.Together link.parent link.child := by
  intro store handed
  have numbers : handed.map (fun entry => entry.2.raw) =
      (List.range' 1 handed.length).map Int.ofNat := map_raw_handedOut .empty edits
  refine ⟨⟨?_, ?_, ?_, ?_⟩, ?_, ?_, ?_, .applyAll edits, ?_⟩
  · exact store.workflows.filedByOwnId
  · exact store.versions.filedByOwnId
  · exact store.nodes.filedByOwnId
  · exact store.links.filedByOwnId
  · rw [numbers]
    apply List.pairwise_map.mpr
    apply List.Pairwise.imp _ List.nodup_range'
    intro first second different same
    exact different (Int.ofNat.inj same)
  · intro entry member
    have listed : entry.2.raw ∈ handed.map (fun entry => entry.2.raw) := List.mem_map_of_mem member
    rw [numbers] at listed
    rcases List.mem_map.mp listed with ⟨number, inRange, same⟩
    have bounds := List.mem_range'_1.mp inRange
    rw [← same]
    simp only [Int.ofNat_eq_natCast]
    omega
  · intro entry held
    exact (onFile_applyAll .empty edits entry held).resolve_left (not_onFile_empty entry)
  · exact (WorkflowStore.Consistent.applyAll edits).joined

end WorkflowEdit

end NodeSteward
