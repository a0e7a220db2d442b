import NodeSteward.Proofs.Workflow.Change
import NodeSteward.Proofs.Workflow.Deleting
import NodeSteward.Proofs.Workflow.Expansion

/-!
# What log entries refer to

A log entry refers to nodes in two columns: the node that ran, and the trigger that started the
run.  A delete takes the entries of the nodes that go along, so that the first column always names
a stored node.  It does not look at the second one.  An entry of a node that stays keeps the
identifier of its trigger when the trigger is deleted, and then refers to a node that is not there.

As long as only stored nodes are named when entries are written, the entries of a history refer to
stored nodes exactly if no delete of the history takes a trigger away from an entry that stays.
-/

namespace NodeSteward

/-- A column of a log entry that refers to a node. -/
inductive LogColumn where
  | run
  | trigger
  deriving DecidableEq, Repr

/-- The node that a log entry names in a column. -/
def LogEntry.named? (entry : LogEntry) : LogColumn → Option NodeId
  | .run => some entry.node
  | .trigger => entry.triggeredBy

namespace WorkflowStore

variable {store after : WorkflowStore} {column : LogColumn}

/-- What an entry names in a column is a stored node, if it names one there. -/
def HoldsNamed (store : WorkflowStore) (column : LogColumn) (entry : LogEntry) : Prop :=
  ∀ id ∈ entry.named? column, store.nodes.contains id = true

instance (store : WorkflowStore) (column : LogColumn) (entry : LogEntry) :
    Decidable (store.HoldsNamed column entry) :=
  inferInstanceAs (Decidable (∀ id ∈ entry.named? column, store.nodes.contains id = true))

/-- All entries name stored nodes in a column. -/
def RefersToStored (store : WorkflowStore) (column : LogColumn) : Prop :=
  ∀ entry ∈ store.logs, store.HoldsNamed column entry

instance (store : WorkflowStore) (column : LogColumn) : Decidable (store.RefersToStored column) :=
  inferInstanceAs (Decidable (∀ entry ∈ store.logs, store.HoldsNamed column entry))

namespace RefersToStored

theorem empty (column : LogColumn) : WorkflowStore.empty.RefersToStored column :=
  fun _ member => absurd member List.not_mem_nil

theorem of_same_logs (refers : store.RefersToStored column) (logs : after.logs = store.logs)
    (stay : ∀ id, store.nodes.contains id = true → after.nodes.contains id = true) :
    after.RefersToStored column := by
  intro entry member id named
  rw [logs] at member
  exact stay id (refers entry member id named)

/-- An entry that the store takes has to name a stored node. -/
theorem insertLog_iff (refers : store.RefersToStored column) (entry : LogEntry) :
    (store.insertLog entry).2.RefersToStored column ↔
      (store.refusesLogs = false → store.HoldsNamed column entry) := by
  unfold insertLog
  split
  · rename_i refuses
    exact iff_of_true refers (fun takes => absurd takes (by rw [refuses]; nofun))
  · rename_i takes
    constructor
    · intro after _
      exact after entry (List.mem_append_right _ (List.mem_singleton_self entry))
    · intro named other member
      rcases List.mem_append.mp member with old | new
      · exact refers other old
      · rw [List.mem_singleton.mp new]
        exact named (Bool.eq_false_iff.mpr takes)

end RefersToStored

end WorkflowStore

namespace Deletion

variable {store : WorkflowStore} {deletion : Deletion} {column : LogColumn}

/-- A stored deletion that takes away the node which an entry that stays names in a column. -/
def Orphans (deletion : Deletion) (store : WorkflowStore) (column : LogColumn) : Prop :=
  deletion.isStored store = true ∧
    ∃ entry ∈ store.logs, deletion.takesEntry store entry = false ∧
      ∃ id ∈ entry.named? column, deletion.takesNodeId store id = true

/-- The entries of a node go with it. -/
theorem not_orphans_run (deletion : Deletion) (store : WorkflowStore) :
    ¬ deletion.Orphans store .run := by
  rintro ⟨_, entry, _, stays, id, named, goes⟩
  rw [LogEntry.named?, Option.mem_some_iff] at named
  rw [takesEntry, named, goes] at stays
  cases stays

theorem contains_remainder_iff {id : NodeId} (held : store.nodes.contains id = true) :
    (deletion.remainder store).nodes.contains id = true ↔
      deletion.takesNodeId store id = false := by
  rcases Option.isSome_iff_exists.mp held with ⟨node, found⟩
  have kept : (deletion.remainder store).nodes.get? id =
      (some node).filter (fun held => !deletion.takesNode store held) := by
    rw [← found]
    exact store.nodes.get?_filter _ id
  have found : store.node? id = some node := found
  rw [Table.contains, kept, takesNodeId_eq, found, Option.any_some]
  cases goes : deletion.takesNode store node <;> simp [goes]

/-- What a deletion leaves refers to stored nodes exactly if it orphans no entry. -/
theorem refersToStored_remainder_iff (refers : store.RefersToStored column)
    (stored : deletion.isStored store = true) :
    (deletion.remainder store).RefersToStored column ↔ ¬ deletion.Orphans store column := by
  constructor
  · rintro after ⟨_, entry, member, stays, id, named, goes⟩
    have listed : entry ∈ (deletion.remainder store).logs :=
      List.mem_filter.mpr ⟨member, by rw [stays]; rfl⟩
    have kept := (contains_remainder_iff (refers entry member id named)).mp
      (after entry listed id named)
    rw [goes] at kept
    cases kept
  · intro spares entry listed id named
    rcases List.mem_filter.mp listed with ⟨member, stays⟩
    rw [contains_remainder_iff (refers entry member id named), ← Bool.not_eq_true]
    intro goes
    exact spares ⟨stored, entry, member, by simpa using stays, id, named, goes⟩

end Deletion

namespace WorkflowEdit

variable {store : WorkflowStore} {column : LogColumn}

/-- The deletion that an edit makes, if it is one. -/
def deletion? : WorkflowEdit → Option Deletion
  | deleteWorkflow id => some (.workflow id)
  | deleteVersion id => some (.version id)
  | deleteNode id => some (.node id)
  | _ => none

theorem apply_of_deletion? {edit : WorkflowEdit} {deletion : Deletion}
    (deletes : edit.deletion? = some deletion) (store : WorkflowStore) (now : Timestamp) :
    edit.apply store now =
      if deletion.isStored store then deletion.remainder store else store := by
  cases edit with
  | deleteWorkflow id =>
    cases deletes
    show (store.deleteWorkflow id).2 = if store.workflows.contains id then _ else _
    split
    · rename_i stored
      exact Deletion.deleteWorkflow_eq stored
    · rename_i absent
      rw [WorkflowStore.deleteWorkflow, if_neg absent]
  | deleteVersion id =>
    cases deletes
    show (store.deleteVersion id).2 = if store.versions.contains id then _ else _
    split
    · rename_i stored
      exact Deletion.deleteVersion_eq stored
    · rename_i absent
      rw [WorkflowStore.deleteVersion, if_neg absent]
  | deleteNode id =>
    cases deletes
    show (store.deleteNode id).2 = if store.nodes.contains id then _ else _
    split
    · rename_i stored
      exact Deletion.deleteNode_eq stored
    · rename_i absent
      rw [WorkflowStore.deleteNode, if_neg absent]
  | _ => cases deletes

theorem apply_appendLog (store : WorkflowStore) (now : Timestamp) (entry : LogEntry) :
    (appendLog entry).apply store now = (store.insertLog { entry with createdOn := now }).2 :=
  snd_outcome_ask_bind_pure _ _ _

/-- The stamp of an entry does not matter for what it names. -/
theorem named?_stamped (entry : LogEntry) (now : Timestamp) (column : LogColumn) :
    LogEntry.named? { entry with createdOn := now } column = entry.named? column := by
  cases column <;> rfl

/-- The edit is a delete that takes away a node which an entry that stays names in a column. -/
def Orphans (store : WorkflowStore) (column : LogColumn) (edit : WorkflowEdit) : Prop :=
  ∃ deletion ∈ edit.deletion?, deletion.Orphans store column

/-- The edit writes an entry that names a node in a column which is not stored. -/
def Misnames (store : WorkflowStore) (column : LogColumn) : WorkflowEdit → Prop
  | appendLog entry => store.refusesLogs = false ∧ ¬ store.HoldsNamed column entry
  | _ => False

/-- Edits that neither delete nor write to the log leave the log and all nodes. -/
theorem apply_of_deletion?_eq_none {edit : WorkflowEdit} (deletes : edit.deletion? = none)
    (noEntry : ∀ entry, edit ≠ appendLog entry) (store : WorkflowStore) (now : Timestamp) :
    (edit.apply store now).logs = store.logs ∧
      ∀ id, store.nodes.contains id = true → (edit.apply store now).nodes.contains id = true := by
  have changes := apply_changes store now edit
  generalize edit.apply store now = after at changes
  cases changes with
  | workflowDeleted => cases deletes
  | versionDeleted => cases deletes
  | nodeDeleted => cases deletes
  | logAdded given => exact absurd rfl (noEntry given)
  | nodeAdded => exact ⟨rfl, fun _ held => Table.contains_insert.mpr (Or.inr held)⟩
  | nodeWritten given change keeps => exact ⟨rfl, fun _ => (Table.contains_modify keeps).mpr⟩
  | _ => exact ⟨rfl, fun _ => id⟩

/-- One edit keeps the references of a column exactly if it neither orphans an entry nor names a
node that is not stored. -/
theorem apply_refersToStored_iff (refers : store.RefersToStored column) (now : Timestamp)
    (edit : WorkflowEdit) :
    (edit.apply store now).RefersToStored column ↔
      ¬ (edit.Orphans store column ∨ edit.Misnames store column) := by
  cases deletes : edit.deletion? with
  | some deletion =>
    have misnames : ¬ edit.Misnames store column := by
      cases edit with
      | appendLog => cases deletes
      | _ => exact id
    have orphans : edit.Orphans store column ↔ deletion.Orphans store column := by
      rw [Orphans, deletes]
      simp
    rw [apply_of_deletion? deletes, or_iff_left misnames, orphans]
    split
    · rename_i stored
      exact Deletion.refersToStored_remainder_iff refers stored
    · rename_i absent
      exact iff_of_true refers (fun orphans => absent orphans.1)
  | none =>
    have orphans : ¬ edit.Orphans store column := by
      rw [Orphans, deletes]
      simp
    rw [or_iff_right orphans]
    by_cases appends : ∃ entry, edit = appendLog entry
    · rcases appends with ⟨entry, rfl⟩
      rw [apply_appendLog, refers.insertLog_iff, WorkflowStore.HoldsNamed, named?_stamped,
        Misnames, not_and, not_not]
      rfl
    · have noEntry : ∀ entry, edit ≠ appendLog entry := fun entry same => appends ⟨entry, same⟩
      rcases apply_of_deletion?_eq_none deletes noEntry store now with ⟨logs, stay⟩
      refine iff_of_true (refers.of_same_logs logs stay) ?_
      intro misnames
      cases edit with
      | appendLog entry => exact noEntry entry rfl
      | _ => exact misnames

/-! ## Histories of edits -/

/-- An entry that the edit writes names stored nodes. -/
def NamesStored (store : WorkflowStore) : WorkflowEdit → Prop
  | appendLog entry => store.HoldsNamed .run entry ∧ store.HoldsNamed .trigger entry
  | _ => True

instance (store : WorkflowStore) (edit : WorkflowEdit) : Decidable (edit.NamesStored store) :=
  match edit with
  | appendLog entry =>
    inferInstanceAs (Decidable (store.HoldsNamed .run entry ∧ store.HoldsNamed .trigger entry))
  | createWorkflow _ | updateWorkflow _ | deleteWorkflow _ | cloneOrCreateVersion _ _ _
  | updateVersion _ | deleteVersion _ | addNode _ | updateNode _ | deleteNode _ | addLink _
  | updateLink _ | deleteLink _ => isTrue trivial

theorem NamesStored.not_misnames {edit : WorkflowEdit} (named : edit.NamesStored store)
    (column : LogColumn) : ¬ edit.Misnames store column := by
  cases edit with
  | appendLog entry =>
    rintro ⟨_, unnamed⟩
    cases column with
    | run => exact unnamed named.1
    | trigger => exact unnamed named.2
  | _ => exact id

/-- Every entry that a history writes names nodes that are stored when it is written. -/
def AllNameStored : WorkflowStore → List (Timestamp × WorkflowEdit) → Prop
  | _, [] => True
  | store, (now, edit) :: edits =>
    edit.NamesStored store ∧ AllNameStored (edit.apply store now) edits

instance decidableAllNameStored :
    (store : WorkflowStore) → (edits : List (Timestamp × WorkflowEdit)) →
      Decidable (AllNameStored store edits)
  | _, [] => isTrue trivial
  | store, (now, edit) :: edits =>
    have := decidableAllNameStored (edit.apply store now) edits
    inferInstanceAs (Decidable (_ ∧ _))

theorem AllNameStored.at {edits before after : List (Timestamp × WorkflowEdit)}
    {edit : Timestamp × WorkflowEdit} (named : AllNameStored store edits)
    (split : edits = before ++ edit :: after) :
    edit.2.NamesStored (applyAll store before) := by
  induction before generalizing store edits with
  | nil =>
    subst split
    exact named.1
  | cons first before ih =>
    subst split
    exact ih named.2 rfl

/-- The entries of a history that names stored nodes refer to stored nodes in a column, in all the
states that it passes through, exactly if none of its edits orphans an entry there. -/
theorem refersToStored_throughout_iff (edits : List (Timestamp × WorkflowEdit))
    (named : AllNameStored .empty edits) (column : LogColumn) :
    (∀ before after, edits = before ++ after →
      (applyAll .empty before).RefersToStored column) ↔
      ∀ before edit after, edits = before ++ edit :: after →
        ¬ edit.2.Orphans (applyAll .empty before) column := by
  have step : ∀ (before : WorkflowStore) (now : Timestamp) (edit : WorkflowEdit),
      before.RefersToStored column → ((edit.apply before now).RefersToStored column ↔
        ¬ (edit.Orphans before column ∨ edit.Misnames before column)) :=
    fun _ now edit refers => apply_refersToStored_iff refers now edit
  rw [applyAll_throughout_iff step (.empty column) edits]
  constructor
  · intro sound before edit after split orphans
    exact sound before edit after split (Or.inl orphans)
  · rintro spares before edit after split (orphans | misnames)
    · exact spares before edit after split orphans
    · exact (named.at split).not_misnames column misnames

/-- Take any history of edits in which entries are written for stored nodes only.  In all states
that it passes through, the node that ran is stored for every entry.  The trigger of every entry
that names one is stored too exactly if no delete of the history takes a trigger away from an entry
that stays. -/
theorem edited_log_references_iff (edits : List (Timestamp × WorkflowEdit))
    (named : AllNameStored .empty edits) :
    (∀ before after, edits = before ++ after → (applyAll .empty before).RefersToStored .run) ∧
    ((∀ before after, edits = before ++ after →
        (applyAll .empty before).RefersToStored .trigger) ↔
      ∀ before edit after, edits = before ++ edit :: after →
        ¬ edit.2.Orphans (applyAll .empty before) .trigger) := by
  refine ⟨?_, refersToStored_throughout_iff edits named .trigger⟩
  refine (refersToStored_throughout_iff edits named .run).mpr ?_
  rintro before edit after _ ⟨deletion, _, orphans⟩
  exact deletion.not_orphans_run _ orphans

/-- An entry for a run of the given node that the given trigger started. -/
def runEntry (node : NodeId) (trigger : Option NodeId) : LogEntry :=
  { LogEntry.ofRun 7 node "firing" ⟨0, 0⟩ with triggeredBy := trigger }

/-- Node 7 is logged as run by node 6 and goes with it, when their version is deleted.  Node 5 is
logged as run by node 4, and only node 4 is deleted. -/
def forgottenTrigger : List (Timestamp × WorkflowEdit) :=
  atOnce
    [createNamed "fees", .cloneOrCreateVersion ⟨1⟩ 1 "first",
      .cloneOrCreateVersion ⟨1⟩ 2 "second", .addNode (.plain ⟨2⟩), .addNode (.plain ⟨2⟩),
      .addNode (.plain ⟨3⟩), .addNode (.plain ⟨3⟩), .appendLog (runEntry ⟨4⟩ none),
      .appendLog (runEntry ⟨5⟩ (some ⟨4⟩)), .appendLog (runEntry ⟨7⟩ (some ⟨6⟩)),
      .deleteVersion ⟨3⟩, .deleteNode ⟨4⟩]

/-- Of the three entries one is left, and it still names node 4. -/
theorem not_refersToStored_forgottenTrigger :
    let store := applyAll .empty forgottenTrigger
    AllNameStored .empty forgottenTrigger ∧ ¬ store.RefersToStored .trigger ∧
      store.node? ⟨4⟩ = none ∧ store.logs = [runEntry ⟨5⟩ (some ⟨4⟩)] := by
  decide +kernel

/-- So one of the deletes has taken the trigger away, and the entries of node 4 have gone. -/
theorem edited_log_references_iff_forgottenTrigger :
    AllNameStored .empty forgottenTrigger ∧
      (∀ before after, forgottenTrigger = before ++ after →
        (applyAll .empty before).RefersToStored .run) ∧
      ∃ before edit after, forgottenTrigger = before ++ edit :: after ∧
        edit.2.Orphans (applyAll .empty before) .trigger := by
  have named : AllNameStored .empty forgottenTrigger := by decide +kernel
  have dangling : ¬ (applyAll .empty forgottenTrigger).RefersToStored .trigger := by
    decide +kernel
  rcases edited_log_references_iff forgottenTrigger named with ⟨runs, triggers⟩
  refine ⟨named, runs, ?_⟩
  by_contra spares
  push Not at spares
  exact dangling (triggers.mpr spares forgottenTrigger [] (List.append_nil _).symm)

end WorkflowEdit

end NodeSteward
