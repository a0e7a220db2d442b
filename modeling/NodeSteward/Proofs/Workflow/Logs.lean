import NodeSteward.Proofs.Schedule.Accounts
import NodeSteward.Proofs.Workflow.LinkHomes
import NodeSteward.Proofs.Workflow.References

/-!
# What the log keeps and what its queries return

Entries are added at the end of the log as they are written, and no edit touches one that is there.
An entry goes when a delete takes its node along, be it the node itself that is deleted or its
version or its workflow.  So after a history of edits the log holds the entries that were added,
in this order, without those whose node was deleted later on.

A query selects entries, sorts them by age and returns as many of the newest ones as its limit
allows.  Sorting keeps the order of entries of one instant, which leaves one way only to sort a
selection.  It follows that the log of a node can be read off the log of its workflow.
-/

namespace NodeSteward

open WorkflowProgram (outcome)

namespace Timestamp

variable {first second third : Timestamp}

theorem before_eq_false_iff :
    first.before second = false ↔
      second.seconds < first.seconds ∨
        second.seconds = first.seconds ∧ second.nanos ≤ first.nanos := by
  simp only [before, Bool.or_eq_false_iff, Bool.and_eq_false_iff, decide_eq_false_iff_not,
    beq_eq_false_iff_ne]
  omega

theorem before_eq_false_trans (one : first.before second = false)
    (other : second.before third = false) : first.before third = false := by
  rw [before_eq_false_iff] at *
  omega

theorem before_eq_false_total (first second : Timestamp) :
    first.before second = false ∨ second.before first = false := by
  rw [before_eq_false_iff, before_eq_false_iff]
  omega

/-- Of two different instants one comes before the other. -/
theorem eq_of_before_eq_false (one : first.before second = false)
    (other : second.before first = false) : first = second := by
  rw [before_eq_false_iff] at one other
  rcases first with ⟨seconds, nanos⟩
  rcases second with ⟨otherSeconds, otherNanos⟩
  dsimp only at one other
  rw [mk.injEq]
  omega

end Timestamp

namespace LogEntry

/-- The entries of one instant, in their order. -/
def writtenAt (entries : List LogEntry) (instant : Timestamp) : List LogEntry :=
  entries.filter fun entry => entry.createdOn = instant

theorem writtenAt_cons (entry : LogEntry) (rest : List LogEntry) (instant : Timestamp) :
    writtenAt (entry :: rest) instant =
      if entry.createdOn = instant then entry :: writtenAt rest instant
      else writtenAt rest instant := by
  rw [writtenAt, List.filter_cons]
  simp only [decide_eq_true_eq]
  rfl

/-- Entries in the order of an answer: none stands before a newer one, and those of one instant
stand in the order in which they were written. -/
structure ByAge (written sorted : List LogEntry) : Prop where
  same : sorted.Perm written
  newestFirst : sorted.Pairwise fun earlier later =>
    earlier.createdOn.before later.createdOn = false
  ties : ∀ instant, writtenAt sorted instant = writtenAt written instant

namespace ByAge

variable {written sorted : List LogEntry}

theorem mergeSort (written : List LogEntry) :
    ByAge written (written.mergeSort LogEntry.newestFirst) := by
  have trans : ∀ first second third : LogEntry, first.newestFirst second = true →
      second.newestFirst third = true → first.newestFirst third = true := by
    intro first second third one other
    rw [LogEntry.newestFirst, Bool.not_eq_true'] at *
    exact Timestamp.before_eq_false_trans one other
  have total : ∀ first second : LogEntry,
      (first.newestFirst second || second.newestFirst first) = true := by
    intro first second
    rw [Bool.or_eq_true, LogEntry.newestFirst, LogEntry.newestFirst, Bool.not_eq_true',
      Bool.not_eq_true']
    exact Timestamp.before_eq_false_total _ _
  refine ⟨List.mergeSort_perm _ _, ?_, ?_⟩
  · refine (List.pairwise_mergeSort trans total written).imp ?_
    intro first second ordered
    rwa [LogEntry.newestFirst, Bool.not_eq_true'] at ordered
  · intro instant
    -- entries of one instant are in order as they stand, so sorting all keeps them as a sublist
    have alike : (writtenAt written instant).Pairwise
        (fun first second => first.newestFirst second = true) := by
      refine List.pairwise_of_forall_mem_list ?_
      intro first listed second member
      have one : first.createdOn = instant := by simpa using (List.mem_filter.mp listed).2
      have other : second.createdOn = instant := by simpa using (List.mem_filter.mp member).2
      rw [LogEntry.newestFirst, one, other, Bool.not_eq_true', Timestamp.before_eq_false_iff]
      exact Or.inr ⟨rfl, Nat.le_refl _⟩
    have kept := (List.sublist_mergeSort trans total alike List.filter_sublist).filter
      (fun entry => decide (entry.createdOn = instant))
    rw [writtenAt, List.filter_filter] at kept
    simp only [Bool.and_self] at kept
    exact (kept.eq_of_length ((List.mergeSort_perm written _).filter _).length_eq.symm).symm

/-- What is selected from sorted entries is sorted. -/
theorem filter (byAge : ByAge written sorted) (keep : LogEntry → Bool) :
    ByAge (written.filter keep) (sorted.filter keep) := by
  refine ⟨byAge.same.filter keep, byAge.newestFirst.filter keep, ?_⟩
  intro instant
  have ties : sorted.filter _ = written.filter _ := byAge.ties instant
  rw [writtenAt, writtenAt, List.filter_comm, ties, List.filter_comm]

theorem mem_iff_of_ties {first second : List LogEntry}
    (ties : ∀ instant, writtenAt first instant = writtenAt second instant) {entry : LogEntry} :
    entry ∈ first ↔ entry ∈ second := by
  have own : ∀ entries, entry ∈ entries ↔ entry ∈ writtenAt entries entry.createdOn := by
    intro entries
    rw [writtenAt, List.mem_filter, decide_eq_true_eq, and_iff_left rfl]
  rw [own first, own second, ties]

/-- The first one of sorted entries is of the latest instant, and among those of that instant it is
the one written first. -/
theorem eq_of_ties {first second : List LogEntry}
    (ordered : first.Pairwise fun earlier later =>
      earlier.createdOn.before later.createdOn = false)
    (orderedToo : second.Pairwise fun earlier later =>
      earlier.createdOn.before later.createdOn = false)
    (ties : ∀ instant, writtenAt first instant = writtenAt second instant) : first = second := by
  induction first generalizing second with
  | nil =>
    refine (List.eq_nil_iff_forall_not_mem.mpr ?_).symm
    intro entry listed
    exact List.not_mem_nil ((mem_iff_of_ties ties).mpr listed)
  | cons entry rest ih =>
    cases second with
    | nil => exact absurd ((mem_iff_of_ties ties).mp List.mem_cons_self) List.not_mem_nil
    | cons head tail =>
      rw [List.pairwise_cons] at ordered orderedToo
      have instant : entry.createdOn = head.createdOn := by
        rcases List.mem_cons.mp ((mem_iff_of_ties ties).mp List.mem_cons_self) with
          same | later
        · rw [same]
        · rcases List.mem_cons.mp ((mem_iff_of_ties ties).mpr List.mem_cons_self) with
            same | behind
          · rw [same]
          · exact Timestamp.eq_of_before_eq_false (ordered.1 head behind)
              (orderedToo.1 entry later)
      have heads := ties head.createdOn
      rw [writtenAt_cons, writtenAt_cons, if_pos instant, if_pos rfl, List.cons.injEq] at heads
      rcases heads with ⟨rfl, _⟩
      rw [ih ordered.2 orderedToo.2]
      intro other
      have behind := ties other
      rw [writtenAt_cons, writtenAt_cons] at behind
      split at behind
      · exact (List.cons.inj behind).2
      · exact behind

/-- Entries can be sorted in one way only. -/
theorem unique {other : List LogEntry} (byAge : ByAge written sorted)
    (again : ByAge written other) : sorted = other :=
  eq_of_ties byAge.newestFirst again.newestFirst
    fun instant => (byAge.ties instant).trans (again.ties instant).symm

end ByAge

/-- An answer about some entries: in their order by age, those that are shown come first and those
that are left out follow.  At most as many are shown as the limit says, and never more than 500. -/
structure Shows (written : List LogEntry) (limit : Int) (shown left : List LogEntry) : Prop where
  byAge : ByAge written (shown ++ left)
  length : shown.length = min (min (max limit 0) 500).toNat written.length
  newest : ∀ entry ∈ shown, ∀ other ∈ left, entry.createdOn.before other.createdOn = false

variable {written shown left : List LogEntry} {limit : Int}

theorem exists_shows_newest (written : List LogEntry) (limit : Int) :
    ∃ left, Shows written limit (WorkflowStore.newest written (clampLimit limit)) left := by
  let sorted := written.mergeSort LogEntry.newestFirst
  have byAge : ByAge written (sorted.take (clampLimit limit).toNat ++
      sorted.drop (clampLimit limit).toNat) := by
    rw [List.take_append_drop]
    exact ByAge.mergeSort written
  refine ⟨sorted.drop (clampLimit limit).toNat, byAge, ?_, ?_⟩
  · have most : clampLimit limit = min (max limit 0) 500 := by
      unfold clampLimit maxResults
      omega
    rw [WorkflowStore.newest, List.length_take, List.length_mergeSort, most]
  · exact (List.pairwise_append.mp byAge.newestFirst).2.2

/-- Where nothing is left out, a selection of the entries is answered with that selection of the
answer. -/
theorem newest_filter_of_shows_all (all : Shows written limit shown [])
    (keep : LogEntry → Bool) :
    WorkflowStore.newest (written.filter keep) (clampLimit limit) = shown.filter keep := by
  have byAge := all.byAge
  rw [List.append_nil] at byAge
  rcases exists_shows_newest (written.filter keep) limit with ⟨left, selection⟩
  have sorted := selection.byAge.unique (byAge.filter keep)
  have selected : (written.filter keep).length ≤ written.length := List.length_filter_le _ _
  have whole := byAge.same.length_eq
  have bound := all.length
  have boundToo := selection.length
  have lengths := congrArg List.length sorted
  rw [List.length_append, (byAge.same.filter keep).length_eq] at lengths
  -- the bound lets all entries through, so also those that are selected
  have nothing : left = [] := List.eq_nil_of_length_eq_zero (by omega)
  rwa [nothing, List.append_nil] at sorted

end LogEntry

/-! ## Which entries belong to a workflow -/

namespace WorkflowStore

variable {store : WorkflowStore}

/-- A node belongs to a workflow: it is stored in one of the stored versions of it. -/
def InWorkflow (store : WorkflowStore) (workflow : WorkflowId) (id : NodeId) : Prop :=
  ∃ version ∈ store.versions.rows, version.workflowId = workflow ∧ store.InVersion version.id id

instance (store : WorkflowStore) (workflow : WorkflowId) (id : NodeId) :
    Decidable (store.InWorkflow workflow id) :=
  inferInstanceAs (Decidable (∃ version ∈ store.versions.rows,
    version.workflowId = workflow ∧ store.InVersion version.id id))

/-- The version of a node is looked up by what the node carries. -/
theorem inWorkflow_iff {workflow : WorkflowId} {id : NodeId} :
    store.InWorkflow workflow id ↔
      ((store.node? id).bind (fun node => store.version? node.versionId)).any
        (fun version => version.workflowId = workflow) = true := by
  rw [Option.any_eq_true]
  constructor
  · rintro ⟨version, filed, owner, node, member, named, placed⟩
    have found : store.node? id = some node := Table.get?_eq_some_iff.mpr ⟨member, named⟩
    have home : store.version? node.versionId = some version :=
      Table.get?_eq_some_iff.mpr ⟨filed, placed.symm⟩
    exact ⟨version, by rw [found, Option.bind_some, home], decide_eq_true owner⟩
  · rintro ⟨version, found, owner⟩
    rcases Option.bind_eq_some_iff.mp found with ⟨node, found, home⟩
    rcases Table.get?_eq_some_iff.mp found with ⟨member, named⟩
    rcases Table.get?_eq_some_iff.mp home with ⟨filed, placed⟩
    exact ⟨version, filed, of_decide_eq_true owner, node, member, named, placed.symm⟩

theorem logsForWorkflow_eq (store : WorkflowStore) (workflow : WorkflowId) (limit : Int) :
    store.logsForWorkflow workflow limit =
      newest (store.logs.filter fun entry => store.InWorkflow workflow entry.node) limit := by
  rw [logsForWorkflow]
  congr 2
  funext entry
  rw [Bool.eq_iff_iff, decide_eq_true_iff, inWorkflow_iff]

/-- The queries with a limit tell exactly of the given entries.  Whichever node or workflow is asked
for, the answer shows the newest of its entries, and the store stays as it is.  Where nothing of a
workflow is left out, the answer has entries of the nodes of the workflow only, and the log of each
of these nodes is what the answer has of it. -/
structure ReadsLog (store : WorkflowStore) (written : List LogEntry) (limit : Int) : Prop where
  ofNode : ∀ node, ∃ shown left,
    outcome (LogEntry.recentOfNode node limit) store = (.ok shown, store) ∧
      LogEntry.Shows (written.filter fun entry => entry.node = node) limit shown left
  ofWorkflow : ∀ workflow, ∃ shown left,
    outcome (LogEntry.recentOfWorkflow workflow limit) store = (.ok shown, store) ∧
      LogEntry.Shows (written.filter fun entry => store.InWorkflow workflow entry.node) limit
        shown left ∧
      (left = [] →
        (∀ entry ∈ shown, store.InWorkflow workflow entry.node) ∧
        ∀ node, store.InWorkflow workflow node →
          ∃ log, outcome (LogEntry.recentOfNode node limit) store = (.ok log, store) ∧
            log = shown.filter (fun entry => entry.node = node) ∧ log.Sublist shown)

theorem readsLog (store : WorkflowStore) (limit : Int) : store.ReadsLog store.logs limit := by
  refine ⟨?_, ?_⟩
  · intro node
    rcases LogEntry.exists_shows_newest (store.logs.filter fun entry => entry.node = node) limit
      with ⟨left, shows⟩
    exact ⟨_, left, rfl, shows⟩
  · intro workflow
    let own := store.logs.filter fun entry => store.InWorkflow workflow entry.node
    rcases LogEntry.exists_shows_newest own limit with ⟨left, shows⟩
    have answer : outcome (LogEntry.recentOfWorkflow workflow limit) store =
        (.ok (newest own (LogEntry.clampLimit limit)), store) := by
      rw [← store.logsForWorkflow_eq workflow]
      rfl
    refine ⟨_, left, answer, shows, ?_⟩
    rintro rfl
    have byAge := shows.byAge
    rw [List.append_nil] at byAge
    constructor
    · intro entry listed
      exact of_decide_eq_true (List.mem_filter.mp (byAge.same.mem_iff.mp listed)).2
    · intro node inside
      have ofNode : own.filter (fun entry => entry.node = node) =
          store.logs.filter (fun entry => entry.node = node) := by
        rw [List.filter_filter]
        refine List.filter_congr ?_
        intro entry _
        by_cases same : entry.node = node
        · rw [same, decide_eq_true inside, Bool.and_true]
        · rw [decide_eq_false same, Bool.false_and]
      have log := LogEntry.newest_filter_of_shows_all shows (fun entry => entry.node = node)
      rw [ofNode] at log
      refine ⟨_, ?_, rfl, List.filter_sublist⟩
      rw [← log]
      rfl

end WorkflowStore

/-- An entry that the store refuses leaves it as it is. -/
theorem LogEntry.outcome_append_of_refuses (now : Timestamp) (entry : LogEntry)
    {store : WorkflowStore} (refuses : store.refusesLogs = true) :
    ∃ error, outcome (append now entry) store = (.error error, store) := by
  refine ⟨.store (.storageFailure "insert_workflow_version_node_log" "log inserts disabled"), ?_⟩
  apply WorkflowProgram.outcome_bind_of_error
  show ((store.insertLog _).1.mapError _, (store.insertLog _).2) = _
  rw [WorkflowStore.insertLog, if_pos refuses]
  rfl

/-! ## Edits and their histories -/

namespace WorkflowEdit

variable {store : WorkflowStore}

/-- The edit deletes a stored node: what it deletes is the node, its version or its workflow. -/
def deletesNode (store : WorkflowStore) (edit : WorkflowEdit) (id : NodeId) : Bool :=
  edit.deletion?.any fun deletion =>
    deletion.isStored store && deletion.takesNodeId store id

/-- The entry that the edit adds to the log, if it is one that adds an entry and does not fail. -/
def appended? (store : WorkflowStore) (now : Timestamp) : WorkflowEdit → Option LogEntry
  | appendLog entry => (outcome (LogEntry.append now entry) store).1.toOption
  | _ => none

/-- A new entry comes last. -/
theorem logs_appendLog (store : WorkflowStore) (now : Timestamp) (entry : LogEntry) :
    ((appendLog entry).apply store now).logs =
      store.logs ++ ((appendLog entry).appended? store now).toList := by
  show (outcome (LogEntry.append now entry) store).2.logs =
    store.logs ++ (outcome (LogEntry.append now entry) store).1.toOption.toList
  cases refuses : store.refusesLogs with
  | false =>
    rw [LogEntry.outcome_append now entry refuses]
    rfl
  | true =>
    rcases LogEntry.outcome_append_of_refuses now entry refuses with ⟨error, run⟩
    rw [run]
    exact (List.append_nil _).symm

theorem deletesNode_of_deletion? {edit : WorkflowEdit} {deletion : Deletion}
    (deletes : edit.deletion? = some deletion) (store : WorkflowStore) (id : NodeId) :
    edit.deletesNode store id = (deletion.isStored store && deletion.takesNodeId store id) := by
  rw [deletesNode, deletes, Option.any_some]

theorem deletesNode_of_deletion?_eq_none {edit : WorkflowEdit} (deletes : edit.deletion? = none)
    (store : WorkflowStore) (id : NodeId) : edit.deletesNode store id = false := by
  rw [deletesNode, deletes, Option.any_none]

/-- An edit drops the entries of the nodes that it deletes, and adds its own. -/
theorem logs_apply (store : WorkflowStore) (now : Timestamp) (edit : WorkflowEdit) :
    (edit.apply store now).logs =
      store.logs.filter (fun entry => !edit.deletesNode store entry.node) ++
        (edit.appended? store now).toList := by
  cases deletes : edit.deletion? with
  | some deletion =>
    have silent : edit.appended? store now = none := by
      cases edit with
      | appendLog => cases deletes
      | _ => rfl
    rw [silent, Option.toList_none, List.append_nil, apply_of_deletion? deletes]
    simp only [deletesNode_of_deletion? deletes]
    cases stored : deletion.isStored store with
    | true =>
      simp only [Bool.true_and]
      rfl
    | false => simp
  | none =>
    have all : store.logs.filter (fun entry => !edit.deletesNode store entry.node) =
        store.logs := by
      refine List.filter_eq_self.mpr ?_
      intro entry _
      rw [deletesNode_of_deletion?_eq_none deletes]
      rfl
    rw [all]
    by_cases appends : ∃ entry, edit = appendLog entry
    · rcases appends with ⟨entry, rfl⟩
      exact logs_appendLog store now entry
    · have noEntry : ∀ entry, edit ≠ appendLog entry := fun entry same => appends ⟨entry, same⟩
      have silent : edit.appended? store now = none := by
        cases edit with
        | appendLog entry => exact absurd rfl (noEntry entry)
        | _ => rfl
      rw [(apply_of_deletion?_eq_none deletes noEntry store now).1, silent, Option.toList_none,
        List.append_nil]

/-- Only deletes take nodes away. -/
theorem contains_of_deletion?_eq_none {edit : WorkflowEdit} (deletes : edit.deletion? = none)
    (now : Timestamp) {id : NodeId} (held : store.nodes.contains id = true) :
    (edit.apply store now).nodes.contains id = true := by
  by_cases appends : ∃ entry, edit = appendLog entry
  · rcases appends with ⟨entry, rfl⟩
    rw [apply_appendLog, WorkflowStore.insertLog]
    split
    · exact held
    · exact held
  · exact (apply_of_deletion?_eq_none deletes (fun entry same => appends ⟨entry, same⟩)
      store now).2 id held

/-- The nodes that an edit deletes are those that are stored before it and not after it. -/
theorem deletesNode_iff (store : WorkflowStore) (now : Timestamp) (edit : WorkflowEdit)
    (id : NodeId) :
    edit.deletesNode store id = true ↔
      store.nodes.contains id = true ∧ ¬ (edit.apply store now).nodes.contains id = true := by
  cases deletes : edit.deletion? with
  | some deletion =>
    rw [deletesNode_of_deletion? deletes, apply_of_deletion? deletes, Bool.and_eq_true]
    by_cases stored : deletion.isStored store = true
    · rw [if_pos stored, and_iff_right stored]
      constructor
      · intro goes
        have held : store.nodes.contains id = true := by
          rw [Deletion.takesNodeId_eq, Option.any_eq_true] at goes
          rcases goes with ⟨node, found, _⟩
          exact Option.isSome_iff_exists.mpr ⟨node, found⟩
        rw [Deletion.contains_remainder_iff held, goes]
        exact ⟨held, nofun⟩
      · rintro ⟨held, gone⟩
        rwa [Deletion.contains_remainder_iff held, Bool.not_eq_false] at gone
    · rw [if_neg stored]
      exact iff_of_false (fun both => stored both.1) (fun both => both.2 both.1)
  | none =>
    rw [deletesNode_of_deletion?_eq_none deletes]
    exact iff_of_false nofun
      (fun both => both.2 (contains_of_deletion?_eq_none deletes now both.1))

/-- One of the edits deletes the node. -/
def deletesLater : WorkflowStore → List (Timestamp × WorkflowEdit) → NodeId → Bool
  | _, [], _ => false
  | store, (now, edit) :: edits, id =>
    edit.deletesNode store id || deletesLater (edit.apply store now) edits id

/-- The entries that the edits add, in this order, without those whose node is deleted by a later
one of the edits. -/
def entriesLeft : WorkflowStore → List (Timestamp × WorkflowEdit) → List LogEntry
  | _, [] => []
  | store, (now, edit) :: edits =>
    let after := edit.apply store now
    (edit.appended? store now).toList.filter (fun entry => !deletesLater after edits entry.node) ++
      entriesLeft after edits

/-- An entry of the log stays in it as it is until its node is deleted. -/
theorem logs_applyAll (store : WorkflowStore) (edits : List (Timestamp × WorkflowEdit)) :
    (applyAll store edits).logs =
      store.logs.filter (fun entry => !deletesLater store edits entry.node) ++
        entriesLeft store edits := by
  induction edits generalizing store with
  | nil =>
    rw [entriesLeft, List.append_nil]
    exact (List.filter_eq_self.mpr fun _ _ => rfl).symm
  | cons first edits ih =>
    rcases first with ⟨now, edit⟩
    have rest := ih (edit.apply store now)
    rw [logs_apply, List.filter_append, List.filter_filter] at rest
    rw [entriesLeft, ← List.append_assoc]
    refine rest.trans ?_
    congr 2
    refine List.filter_congr ?_
    intro entry _
    rw [deletesLater, Bool.not_or, Bool.and_comm]

/-- The store never refuses entries by itself. -/
theorem refusesLogs_applyAll (edits : List (Timestamp × WorkflowEdit)) :
    (applyAll .empty edits).refusesLogs = false := by
  have kept : ∀ (before after : WorkflowStore) (edit : WorkflowEdit),
      before.refusesLogs = false → before.Changes edit after → after.refusesLogs = false := by
    intro before after edit takes changes
    cases changes <;> exact takes
  exact applyAll_of_changes kept edits rfl

/-- What a history of edits makes of the log.  Each edit takes away the entries of the nodes that
were stored before it and no longer are, and nothing else; an entry that is written is put last,
with its stamp.  Whatever the log held at some point is in it at the end, in the same order, but
for the entries whose nodes were deleted in between. -/
structure KeepsLog (edits : List (Timestamp × WorkflowEdit)) : Prop where
  step : ∀ before now edit after, edits = before ++ (now, edit) :: after →
    let held := applyAll .empty before
    let next := edit.apply held now
    next.logs =
        held.logs.filter (fun entry => !edit.deletesNode held entry.node) ++
          (edit.appended? held now).toList ∧
      ∀ id, edit.deletesNode held id = true ↔
        held.nodes.contains id = true ∧ ¬ next.nodes.contains id = true
  writes : ∀ before now entry after, edits = before ++ (now, appendLog entry) :: after →
    (appendLog entry).appended? (applyAll .empty before) now =
      some { entry with createdOn := now }
  since : ∀ before after, edits = before ++ after →
    let held := applyAll .empty before
    (applyAll .empty edits).logs =
      held.logs.filter (fun entry => !deletesLater held after entry.node) ++
        entriesLeft held after

theorem keepsLog (edits : List (Timestamp × WorkflowEdit)) : KeepsLog edits := by
  refine ⟨?_, ?_, ?_⟩
  · intro before now edit after _
    exact ⟨logs_apply _ now edit, deletesNode_iff _ now edit⟩
  · intro before now entry after _
    show (outcome (LogEntry.append now entry) _).1.toOption = _
    rw [LogEntry.outcome_append now entry (refusesLogs_applyAll before)]
    rfl
  · rintro before after rfl
    have run : applyAll .empty (before ++ after) = applyAll (applyAll .empty before) after :=
      List.foldl_append
    rw [run]
    exact logs_applyAll _ after

/-- Take any history of edits and the entries that it leaves: those that were written, in this
order, without those whose node was deleted later on.  The log holds these entries, as they were
written, and the queries tell exactly of them, whatever the limit is. -/
theorem edited_logs_exact (edits : List (Timestamp × WorkflowEdit)) :
    KeepsLog edits ∧
      ∀ limit : Int, (applyAll .empty edits).ReadsLog (entriesLeft .empty edits) limit := by
  have kept := keepsLog edits
  have logs : (applyAll .empty edits).logs = entriesLeft .empty edits := kept.since [] edits rfl
  refine ⟨kept, ?_⟩
  intro limit
  rw [← logs]
  exact (applyAll .empty edits).readsLog limit

end WorkflowEdit

end NodeSteward
