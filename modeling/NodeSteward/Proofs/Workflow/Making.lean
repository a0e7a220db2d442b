import NodeSteward.Proofs.Workflow.Contention
import NodeSteward.Proofs.Workflow.Ownership

/-!
# When a version can be made

A version is made in two steps.  The first looks for a version to copy: any of the workflow for a
draft, and otherwise the one of the same number.  Where there is one, nothing is made, because
copying cannot be done yet.  The second inserts the version, for which the workflow has to be on
file and the number has to be free in it.

When nothing comes between the two steps, a number that is taken in the workflow is seen in the
first one already, so the second one does not fail for it.  And a version that is found has its
workflow on file, because no version outlives its workflow.  So of the two reasons to refuse a
version at most one applies, and each of them is a matter of what is on file.
-/

namespace NodeSteward

open WorkflowProgram (outcome)

namespace VersionJob

variable {store : WorkflowStore} {now : Timestamp} {workflow : WorkflowId} {number : Int32}
  {name : String}

/-- What comes of the wish for a version when nothing disturbs it. -/
inductive Settles (store : WorkflowStore) (now : Timestamp) (workflow : WorkflowId)
    (number : Int32) (name : String) : Except WorkflowError Version × WorkflowStore → Prop
  | copies (occupied : Occupied store workflow number) :
    Settles store now workflow number name
      (.error (.notImplemented "clone_workflow_version"), store)
  | orphaned (free : ¬ Occupied store workflow number)
    (missing : store.workflows.contains workflow = false) :
    Settles store now workflow number name
      (.error (.store (.missingRow "insert_workflow_version" workflow.text)), store)
  | makes (free : ¬ Occupied store workflow number)
    (owned : store.workflows.contains workflow = true) :
    Settles store now workflow number name
      (.ok ((made now workflow number name).withId (store.nextId .version)),
        { store with
          issued := store.issued + 1
          versions :=
            store.versions.insert
              ((made now workflow number name).withId (store.nextId .version)) })

/-- A version that stands in the way is found before anything is written. -/
theorem outcome_copySource_iff (store : WorkflowStore) (workflow : WorkflowId) (number : Int32) :
    ∃ source, outcome (Version.copySource workflow number) store = (.ok source, store) ∧
      (source.isSome ↔ Occupied store workflow number) := by
  unfold Version.copySource
  split
  · rename_i draft
    refine ⟨store.latestVersion? workflow, rfl, ?_⟩
    rw [isSome_latestVersion?_iff, Occupied]
    simp only [draft, true_or, and_true]
  · rename_i real
    refine ⟨store.findVersion? workflow number, rfl, ?_⟩
    rw [isSome_findVersion?_iff, Occupied]
    simp only [real, false_or]

theorem versionTaken_of_free (free : ¬ Occupied store workflow number) :
    store.versionTaken workflow number none = false := by
  rw [WorkflowStore.versionTaken_eq_false_iff]
  intro version member owned same
  exact absurd ⟨version, member, owned, Or.inr same⟩ free

theorem settles (store : WorkflowStore) (now : Timestamp) (workflow : WorkflowId)
    (number : Int32) (name : String) :
    Settles store now workflow number name
      (outcome (Version.cloneOrCreate now workflow number name) store) := by
  rcases outcome_copySource_iff store workflow number with ⟨source, found, occupied⟩
  have run : outcome (Version.cloneOrCreate now workflow number name) store = _ :=
    WorkflowProgram.outcome_bind_of_ok found _
  rw [run]
  cases source with
  | some held => exact .copies (occupied.mp rfl)
  | none =>
    have free : ¬ Occupied store workflow number := fun taken => nomatch occupied.mpr taken
    have inserts := store.insertVersion_inserts (made now workflow number name)
    show Settles store now workflow number name
      ((store.insertVersion (made now workflow number name)).1.mapError .store,
        (store.insertVersion (made now workflow number name)).2)
    generalize store.insertVersion (made now workflow number name) = result at inserts ⊢
    cases inserts with
    | orphaned missing => exact .orphaned free missing
    | taken _ held =>
      cases held.symm.trans (versionTaken_of_free free)
    | filed owned _ => exact .makes free owned

theorem occupied_iff :
    Occupied store workflow number ↔
      (number = 0 ∧ ∃ version ∈ store.versions.rows, version.workflowId = workflow) ∨
        (number ≠ 0 ∧ ∃ version ∈ store.versions.rows,
          version.workflowId = workflow ∧ version.number = number) := by
  unfold Occupied
  by_cases draft : number = 0
  · simp only [draft, true_or, and_true, true_and, ne_eq, not_true, false_and, or_false]
  · simp only [draft, false_or, false_and, ne_eq, not_false_iff, true_and]

/-- A version stands in the way only in a workflow that is on file. -/
theorem contains_of_occupied (owned : store.Owned) (occupied : Occupied store workflow number) :
    store.workflows.contains workflow = true := by
  rcases occupied with ⟨version, member, rfl, _⟩
  exact owned.versions version member

/-- A new version as it was asked for: inactive, of the given workflow and number, and named as
wished or, without a wish, after the instant at which it was made. -/
structure AsAsked (now : Timestamp) (workflow : WorkflowId) (number : Int32) (name : String)
    (version : Version) : Prop where
  workflowId : version.workflowId = workflow
  number : version.number = number
  status : version.status = .inactive
  createdOn : version.createdOn = now
  updatedOn : version.updatedOn = version.createdOn
  name : version.name = if name = "" then version.createdOn.name else name

theorem asAsked_made (id : VersionId) :
    AsAsked now workflow number name ((made now workflow number name).withId id) where
  workflowId := rfl
  number := rfl
  status := rfl
  createdOn := rfl
  updatedOn := rfl
  name := by
    show now.nameOr name = if name = "" then now.name else name
    simp only [Timestamp.nameOr, String.isEmpty_iff]

/-- One version is new on file, and all else is as it was. -/
structure AddsOne (store after : WorkflowStore) (version : Version) : Prop where
  new : store.newVersions after = [version]
  kept : ∀ held ∈ store.versions.rows, held ∈ after.versions.rows
  rest : after = { store with issued := store.issued + 1, versions := after.versions }

theorem addsOne_insert (numbered : store.Numbered) {given : NewVersion}
    (owned : store.workflows.contains given.workflowId = true)
    (free : store.versionTaken given.workflowId given.number none = false) :
    AddsOne store
      { store with
        issued := store.issued + 1
        versions := store.versions.insert (given.withId (store.nextId .version)) }
      (given.withId (store.nextId .version)) where
  new := (WorkflowStore.Inserts.filed owned free).newVersions_eq numbered
  kept held member := by
    refine Table.mem_rows_insert.mpr (Or.inr ⟨member, ?_⟩)
    intro same
    have next : held.id = store.nextId .version := same
    have bound := numbered held member
    rw [next] at bound
    exact absurd bound (Int.not_le.mpr (Int.lt_succ _))
  rest := rfl

/-- After every history of edits, the wish for a version ends in one of three ways, as long as
nobody else writes meanwhile.  It is refused because there is a version to copy, or because the
workflow is not on file, and then nothing changes; otherwise the one version is made that was
asked for. -/
theorem edited_making_settles (edits : List (Timestamp × WorkflowEdit)) (now : Timestamp)
    (workflow : WorkflowId) (number : Int32) (name : String) :
    let store := WorkflowEdit.applyAll .empty edits
    let result := outcome (Version.cloneOrCreate now workflow number name) store
    let copies : Prop :=
      (number = 0 ∧ ∃ version ∈ store.versions.rows, version.workflowId = workflow) ∨
        (number ≠ 0 ∧ ∃ version ∈ store.versions.rows,
          version.workflowId = workflow ∧ version.number = number)
    (result.1 = .error (.notImplemented "clone_workflow_version") ↔ copies) ∧
      ((∃ operation details,
          result.1 = .error (.store (.storageFailure operation details))) ↔
        store.workflow? workflow = none) ∧
      ((∃ version, result.1 = .ok version) ↔
        ¬ copies ∧ (store.workflow? workflow).isSome) ∧
      (∀ error, result.1 = .error error →
        (error = .notImplemented "clone_workflow_version" ∨
          ∃ operation details, error = .store (.storageFailure operation details)) ∧
        result.2 = store) ∧
      ∀ version, result.1 = .ok version →
        AsAsked now workflow number name version ∧ AddsOne store result.2 version := by
  intro store result copies
  have numbered : store.Numbered := (WorkflowStore.Reached.empty.applyAll edits).numbered
  have settled : Settles store now workflow number name result := settles ..
  have occupied_copies : Occupied store workflow number ↔ copies := occupied_iff
  clear_value result copies
  cases settled with
  | copies occupied =>
    have found := occupied_copies.mp occupied
    have present : (store.workflow? workflow).isSome :=
      contains_of_occupied (.applyAll edits) occupied
    refine ⟨iff_of_true rfl found, iff_of_false nofun (Option.isSome_iff_ne_none.mp present),
      iff_of_false nofun (fun free => free.1 found), ?_, nofun⟩
    rintro error ⟨⟩
    exact ⟨Or.inl rfl, rfl⟩
  | orphaned free missing =>
    have absent : store.workflow? workflow = none :=
      Option.not_isSome_iff_eq_none.mp (Bool.eq_false_iff.mp missing)
    refine ⟨iff_of_false nofun (fun found => free (occupied_copies.mpr found)),
      iff_of_true ⟨_, _, rfl⟩ absent, iff_of_false nofun ?_, ?_, nofun⟩
    · rw [absent]
      nofun
    · rintro error ⟨⟩
      exact ⟨Or.inr ⟨_, _, rfl⟩, rfl⟩
  | makes free owned =>
    have clear : ¬ copies := fun found => free (occupied_copies.mpr found)
    have present : (store.workflow? workflow).isSome := owned
    refine ⟨iff_of_false nofun clear, iff_of_false nofun (Option.isSome_iff_ne_none.mp present),
      iff_of_true ⟨_, rfl⟩ ⟨clear, present⟩, nofun, ?_⟩
    rintro version ⟨⟩
    exact ⟨asAsked_made _, addsOne_insert numbered owned (versionTaken_of_free free)⟩

end VersionJob

end NodeSteward
