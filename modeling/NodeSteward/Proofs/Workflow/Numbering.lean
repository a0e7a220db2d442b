import NodeSteward.Proofs.Workflow.Change

/-!
# Version numbers in a workflow

A number is to be taken once in its workflow.  Inserting a version checks the workflow into which
it is written.  Updating one does not: the number is looked for in the workflow that the caller
hands in, while the version stays in the workflow that owns it.  So an update can give a version
the number of another one, if the caller names a workflow in which the number is free.

A history of edits keeps numbers apart exactly as long as no update of that kind is made.
-/

namespace NodeSteward

namespace WorkflowStore

variable {store : WorkflowStore}

/-- No two versions of a workflow have the same number. -/
def NumbersOnce (store : WorkflowStore) : Prop :=
  ∀ first ∈ store.versions.rows, ∀ second ∈ store.versions.rows,
    first.workflowId = second.workflowId → first.number = second.number → first = second

instance (store : WorkflowStore) : Decidable store.NumbersOnce :=
  inferInstanceAs (Decidable (∀ first ∈ store.versions.rows, ∀ second ∈ store.versions.rows,
    first.workflowId = second.workflowId → first.number = second.number → first = second))

/-- An update that passes the check on its number in the workflow that it names, although another
version of the workflow that owns the updated version has that number. -/
structure Collides (store : WorkflowStore) (given : Version) : Prop where
  free : store.versionTaken given.workflowId given.number (some given.id) = false
  taken : ∃ held ∈ store.versions.rows, held.id = given.id ∧
    ∃ other ∈ store.versions.rows, other.id ≠ given.id ∧ other.workflowId = held.workflowId ∧
      other.number = given.number

theorem versionTaken_eq_false_iff {owner : WorkflowId} {number : Int32}
    {except : Option VersionId} :
    store.versionTaken owner number except = false ↔
      ∀ version ∈ store.versions.rows, version.workflowId = owner → version.number = number →
        some version.id = except := by
  simp only [versionTaken, List.any_eq_false, Bool.and_eq_true, decide_eq_true_eq, not_and,
    and_imp, ne_eq, Decidable.not_not]

/-- An update that names the workflow of the version does not collide. -/
theorem Collides.foreign {given : Version} (collides : store.Collides given) :
    ∃ held ∈ store.versions.rows, held.id = given.id ∧ held.workflowId ≠ given.workflowId := by
  rcases collides.taken with ⟨held, member, named, other, otherMember, different, owner, number⟩
  refine ⟨held, member, named, ?_⟩
  intro own
  have same := versionTaken_eq_false_iff.mp collides.free other otherMember (owner.trans own) number
  exact different (Option.some.inj same)

/-- The stamp of an update does not matter for its number. -/
theorem collides_stamped_iff {given : Version} {now : Timestamp} :
    store.Collides { given with updatedOn := now } ↔ store.Collides given :=
  ⟨fun collides => ⟨collides.free, collides.taken⟩,
    fun collides => ⟨collides.free, collides.taken⟩⟩

namespace NumbersOnce

theorem empty : WorkflowStore.empty.NumbersOnce :=
  fun _ member => absurd member List.not_mem_nil

/-- Fewer versions do not clash either. -/
theorem of_subset (once : store.NumbersOnce) {after : WorkflowStore}
    (subset : ∀ version ∈ after.versions.rows, version ∈ store.versions.rows) :
    after.NumbersOnce :=
  fun first firstMember second secondMember =>
    once first (subset first firstMember) second (subset second secondMember)

/-- A new version gets a number that is free in its workflow. -/
theorem insert (once : store.NumbersOnce) {added : Version} {issued : Nat}
    (free : store.versionTaken added.workflowId added.number none = false) :
    NumbersOnce { store with issued, versions := store.versions.insert added } := by
  have apart : ∀ version ∈ store.versions.rows, version.workflowId = added.workflowId →
      version.number ≠ added.number := by
    intro version member owner number
    cases versionTaken_eq_false_iff.mp free version member owner number
  intro first firstMember second secondMember owner number
  rcases Table.mem_rows_insert.mp firstMember with rfl | ⟨firstOld, _⟩
  · rcases Table.mem_rows_insert.mp secondMember with rfl | ⟨secondOld, _⟩
    · rfl
    · exact absurd number.symm (apart second secondOld owner.symm)
  · rcases Table.mem_rows_insert.mp secondMember with rfl | ⟨secondOld, _⟩
    · exact absurd number (apart first firstOld owner)
    · exact once first firstOld second secondOld owner number

/-- Edits other than the update of a version keep numbers apart. -/
theorem of_changes {after : WorkflowStore} {edit : WorkflowEdit} (once : store.NumbersOnce)
    (changes : store.Changes edit after) (noUpdate : ∀ given, edit ≠ .updateVersion given) :
    after.NumbersOnce := by
  cases changes with
  | nothing => exact once
  | workflowAdded => exact once
  | workflowWritten => exact once
  | workflowDeleted => exact once.of_subset (fun _ member => (Table.mem_rows_filter.mp member).1)
  | versionAdded version name owned free => exact once.insert free
  | versionWritten given => exact absurd rfl (noUpdate given)
  | versionDeleted => exact once.of_subset (fun _ member => (Table.mem_rows_filter.mp member).1)
  | nodeAdded => exact once
  | nodeWritten => exact once
  | nodeDeleted => exact once
  | linkAdded => exact once
  | linkWritten => exact once
  | linkDeleted => exact once
  | logAdded => exact once

/-- Renumbering a stored version keeps numbers apart exactly if no other version of its workflow
has the new number. -/
theorem modify_iff (once : store.NumbersOnce) {id : VersionId} (number : Int32)
    {change : Version → Version}
    (keeps : ∀ held, Filed.idOf (change held) = (Filed.idOf held : VersionId))
    (owner : ∀ held, (change held).workflowId = held.workflowId)
    (renumbers : ∀ held, (change held).number = number) :
    NumbersOnce { store with versions := store.versions.modify id change keeps } ↔
      ∀ held ∈ store.versions.rows, held.id = id → ∀ other ∈ store.versions.rows, other.id ≠ id →
        other.workflowId = held.workflowId → other.number ≠ number := by
  have written : ∀ {version : Version}, version ∈ store.versions.rows →
      (if version.id = id then change version else version) ∈
        (store.versions.modify id change keeps).rows :=
    fun member => (Table.mem_rows_modify keeps).mpr ⟨_, member, rfl⟩
  constructor
  · intro after held member named other otherMember different sameOwner taken
    have renumbered := written member
    have kept := written otherMember
    rw [if_pos named] at renumbered
    rw [if_neg different] at kept
    have same := after _ renumbered _ kept ((owner held).trans sameOwner.symm)
      ((renumbers held).trans taken.symm)
    have sameId : (change held).id = held.id := keeps held
    rw [same] at sameId
    exact different (sameId.trans named)
  · intro apart first firstMember second secondMember sameOwner sameNumber
    rcases (Table.mem_rows_modify keeps).mp firstMember with ⟨one, oneMember, rfl⟩
    rcases (Table.mem_rows_modify keeps).mp secondMember with ⟨two, twoMember, rfl⟩
    by_cases oneNamed : Filed.idOf one = id
    · by_cases twoNamed : Filed.idOf two = id
      · rw [Table.eq_of_mem_of_idOf oneMember twoMember (oneNamed.trans twoNamed.symm)]
      · rw [if_pos oneNamed, if_neg twoNamed] at sameOwner sameNumber
        rw [owner] at sameOwner
        rw [renumbers] at sameNumber
        exact absurd sameNumber.symm
          (apart one oneMember oneNamed two twoMember twoNamed sameOwner.symm)
    · by_cases twoNamed : Filed.idOf two = id
      · rw [if_neg oneNamed, if_pos twoNamed] at sameOwner sameNumber
        rw [owner] at sameOwner
        rw [renumbers] at sameNumber
        exact absurd sameNumber
          (apart two twoMember twoNamed one oneMember oneNamed sameOwner)
      · rw [if_neg oneNamed, if_neg twoNamed] at sameOwner sameNumber ⊢
        exact once one oneMember two twoMember sameOwner sameNumber

/-- What the update of a version does to numbers. -/
theorem updateVersion_iff (once : store.NumbersOnce) (given : Version) :
    (store.updateVersion given).2.NumbersOnce ↔ ¬ store.Collides given := by
  by_cases taken : store.versionTaken given.workflowId given.number (some given.id) = true
  · rw [updateVersion, if_pos taken]
    refine iff_of_true once ?_
    intro collides
    rw [collides.free] at taken
    cases taken
  · have free := Bool.eq_false_iff.mpr taken
    by_cases held : store.versions.contains given.id = true
    · rw [updateVersion, if_neg taken, if_pos held]
      refine (once.modify_iff given.number (by intro held; rfl) (by intro held; rfl)
        (by intro held; rfl)).trans ?_
      constructor
      · intro apart collides
        rcases collides.taken with ⟨version, member, named, other, otherMember, rest⟩
        exact apart version member named other otherMember rest.1 rest.2.1 rest.2.2
      · intro noCollision version member named other otherMember different owner number
        exact noCollision
          ⟨free, version, member, named, other, otherMember, different, owner, number⟩
    · rw [updateVersion, if_neg taken, if_neg held]
      refine iff_of_true once ?_
      intro collides
      rcases collides.taken with ⟨version, member, named, _⟩
      exact held (named ▸ Table.contains_of_mem member)

end NumbersOnce

end WorkflowStore

namespace WorkflowEdit

variable {store : WorkflowStore}

/-- The edit is an update that gives a number away twice. -/
def Collides (store : WorkflowStore) : WorkflowEdit → Prop
  | updateVersion given => store.Collides given
  | _ => False

/-- One edit keeps numbers apart exactly if it does not collide. -/
theorem apply_numbersOnce_iff (once : store.NumbersOnce) (now : Timestamp) (edit : WorkflowEdit) :
    (edit.apply store now).NumbersOnce ↔ ¬ edit.Collides store := by
  by_cases update : ∃ given, edit = updateVersion given
  · rcases update with ⟨given, rfl⟩
    rw [apply_updateVersion, once.updateVersion_iff, WorkflowStore.collides_stamped_iff]
    rfl
  · have noUpdate : ∀ given, edit ≠ updateVersion given := fun given same => update ⟨given, same⟩
    refine iff_of_true (once.of_changes (apply_changes store now edit) noUpdate) ?_
    intro collides
    cases edit with
    | updateVersion given => exact noUpdate given rfl
    | _ => exact collides

/-- A history keeps numbers apart, in all the states that it passes through, exactly if none of
its edits is an update that gives a number away twice. -/
theorem numbersOnce_throughout_iff (once : store.NumbersOnce)
    (edits : List (Timestamp × WorkflowEdit)) :
    (∀ before after, edits = before ++ after → (applyAll store before).NumbersOnce) ↔
      ∀ before edit after, edits = before ++ edit :: after →
        ¬ edit.2.Collides (applyAll store before) := by
  have step : ∀ (before : WorkflowStore) (now : Timestamp) (edit : WorkflowEdit),
      before.NumbersOnce → ((edit.apply before now).NumbersOnce ↔ ¬ edit.Collides before) :=
    fun _ now edit once => apply_numbersOnce_iff once now edit
  exact applyAll_throughout_iff step once edits

/-- The states after the parts of a history of edits have no number twice exactly if no edit of
the history is an update that gives a number away twice. -/
theorem edited_numbers_once_iff (edits : List (Timestamp × WorkflowEdit)) :
    (∀ before after, edits = before ++ after → (applyAll .empty before).NumbersOnce) ↔
      ∀ before edit after, edits = before ++ edit :: after →
        ¬ edit.2.Collides (applyAll .empty before) :=
  numbersOnce_throughout_iff .empty edits

/-- Two versions of workflow 1, the second of which is given the number of the first by an update
that names workflow 2. -/
def foreignRenumbering : List (Timestamp × WorkflowEdit) :=
  atOnce
    [createNamed "fees", createNamed "other", .cloneOrCreateVersion ⟨1⟩ 1 "first",
      .cloneOrCreateVersion ⟨1⟩ 2 "second",
      .updateVersion
        { workflowId := ⟨2⟩, number := 1, name := "second", status := .inactive,
          createdOn := ⟨0, 0⟩, updatedOn := ⟨0, 0⟩, id := ⟨4⟩ }]

theorem not_numbersOnce_foreignRenumbering :
    ¬ (applyAll .empty foreignRenumbering).NumbersOnce := by
  decide +kernel

/-- Callers that hand in a version with the workflow that owns it never give a number away
twice. -/
theorem numbersOnce_of_own_workflows {edits : List (Timestamp × WorkflowEdit)}
    (own : ∀ before now given after, edits = before ++ (now, updateVersion given) :: after →
      ∀ held ∈ (applyAll .empty before).versions.rows, held.id = given.id →
        held.workflowId = given.workflowId) :
    (applyAll .empty edits).NumbersOnce := by
  refine (numbersOnce_throughout_iff .empty edits).mpr ?_ edits [] (List.append_nil _).symm
  intro before edit after split collides
  rcases edit with ⟨now, edit⟩
  cases edit with
  | updateVersion given =>
    have foreign := WorkflowStore.Collides.foreign collides
    rcases foreign with ⟨held, member, named, different⟩
    exact different (own before now given after split held member named)
  | _ => exact collides

end WorkflowEdit

end NodeSteward
