import NodeSteward.Proofs.Workflow.Change

/-!
# Exactly what an update writes

A caller updates a record by handing in the whole of it.  The store does not file what it is given.
It takes over the fields that may change, one by one, and stamps the record; the identifier, the
owner and the instant of creation are those on file, whatever the caller wrote in their places.
The caller gets back what was handed in, with the new stamp, and that is the record on file only if
owner and creation were handed in as they are.

There are four kinds of records with one update each.  They are treated as one family here, with a
table for each kind, so that all other records of all tables can be spoken of at once.
-/

namespace NodeSteward

open WorkflowProgram (ask handler_of_outcome_ask outcome outcome_bind_eq_ok)

/-- The records of a kind that the workflow store holds; channels are stored elsewhere. -/
abbrev WorkflowRecord : IdKind → Type
  | .workflow => Workflow
  | .version => Version
  | .node => Node
  | .link => Link
  | .channel => Empty

namespace WorkflowRecord

instance : Filed .channel Empty := ⟨nofun⟩

instance filed : (kind : IdKind) → Filed kind (WorkflowRecord kind)
  | .workflow => inferInstanceAs (Filed .workflow Workflow)
  | .version => inferInstanceAs (Filed .version Version)
  | .node => inferInstanceAs (Filed .node Node)
  | .link => inferInstanceAs (Filed .link Link)
  | .channel => inferInstanceAs (Filed .channel Empty)

variable {kind : IdKind}

abbrev id (record : WorkflowRecord kind) : Id kind :=
  Filed.idOf record

/-- The record to which another one belongs. -/
def owner? : {kind : IdKind} → WorkflowRecord kind → Option (Σ kind, Id kind)
  | .workflow, _ => none
  | .version, version => some ⟨.workflow, NewVersion.workflowId version.toNewVersion⟩
  | .node, node => some ⟨.version, NewNode.versionId node.toNewNode⟩
  | .link, link => some ⟨.version, NewLink.versionId link.toNewLink⟩

def createdOn : {kind : IdKind} → WorkflowRecord kind → Timestamp
  | .workflow, workflow => NewWorkflow.createdOn workflow.toNewWorkflow
  | .version, version => NewVersion.createdOn version.toNewVersion
  | .node, node => NewNode.createdOn node.toNewNode
  | .link, link => NewLink.createdOn link.toNewLink

/-- The operation that updates records of a kind. -/
def update (now : Timestamp) : {kind : IdKind} → WorkflowRecord kind →
    WorkflowProgram (WorkflowRecord kind)
  | .workflow, given => Workflow.update now given
  | .version, given => Version.update now given
  | .node, given => Node.update now given
  | .link, given => Link.update now given

/-- What is handed in, with the instant of the update. -/
def stamped (now : Timestamp) : {kind : IdKind} → WorkflowRecord kind → WorkflowRecord kind
  | .workflow, given => ({ given with updatedOn := now } : Workflow)
  | .version, given => ({ given with updatedOn := now } : Version)
  | .node, given => ({ given with updatedOn := now } : Node)
  | .link, given => ({ given with updatedOn := now } : Link)

/-- What is handed in, with the instant of the update, but with the identifier, the owner and the
instant of creation that are on file. -/
def merged (now : Timestamp) : {kind : IdKind} → WorkflowRecord kind → WorkflowRecord kind →
    WorkflowRecord kind
  | .workflow, given, held =>
    ({ given with
        id := Workflow.id held
        createdOn := createdOn held
        updatedOn := now } : Workflow)
  | .version, given, held =>
    ({ given with
        id := Version.id held
        workflowId := NewVersion.workflowId held.toNewVersion
        createdOn := createdOn held
        updatedOn := now } : Version)
  | .node, given, held =>
    ({ given with
        id := Node.id held
        versionId := NewNode.versionId held.toNewNode
        createdOn := createdOn held
        updatedOn := now } : Node)
  | .link, given, held =>
    ({ given with
        id := Link.id held
        versionId := NewLink.versionId held.toNewLink
        createdOn := createdOn held
        updatedOn := now } : Link)

theorem id_merged (now : Timestamp) (given held : WorkflowRecord kind) :
    (given.merged now held).id = held.id := by
  cases kind with
  | channel => exact nomatch held
  | _ => rfl

/-- Where the fields that an update passes over are handed in as they are, nothing is lost. -/
theorem merged_eq_stamped (now : Timestamp) {given held : WorkflowRecord kind}
    (named : held.id = given.id) (owned : given.owner? = held.owner?)
    (made : given.createdOn = held.createdOn) : given.merged now held = given.stamped now := by
  cases kind with
  | workflow =>
    rw [merged, ← made, show Workflow.id held = Workflow.id given from named]
    rfl
  | version =>
    simp only [owner?, Option.some.injEq, Sigma.mk.injEq, heq_eq_eq, true_and] at owned
    rw [merged, ← made, ← owned, show Version.id held = Version.id given from named]
    rfl
  | node =>
    simp only [owner?, Option.some.injEq, Sigma.mk.injEq, heq_eq_eq, true_and] at owned
    rw [merged, ← made, ← owned, show Node.id held = Node.id given from named]
    rfl
  | link =>
    simp only [owner?, Option.some.injEq, Sigma.mk.injEq, heq_eq_eq, true_and] at owned
    rw [merged, ← made, ← owned, show Link.id held = Link.id given from named]
    rfl
  | channel => exact nomatch held

end WorkflowRecord

namespace WorkflowStore

variable {store after : WorkflowStore} {kind other : IdKind}

/-- The table of a kind of records. -/
def table (store : WorkflowStore) : (kind : IdKind) → Table (WorkflowRecord kind)
  | .workflow => store.workflows
  | .version => store.versions
  | .node => store.nodes
  | .link => store.links
  | .channel => .empty

/-- The store with another table of a kind. -/
def withTable (store : WorkflowStore) : (kind : IdKind) → Table (WorkflowRecord kind) →
    WorkflowStore
  | .workflow, workflows => { store with workflows }
  | .version, versions => { store with versions }
  | .node, nodes => { store with nodes }
  | .link, links => { store with links }
  | .channel, _ => store

theorem table_withTable_of_ne (store : WorkflowStore) (table : Table (WorkflowRecord kind))
    (different : other ≠ kind) : (store.withTable kind table).table other = store.table other := by
  cases kind <;> cases other <;> first | rfl | exact absurd rfl different

theorem table_withTable (store : WorkflowStore) (given : WorkflowRecord kind)
    (table : Table (WorkflowRecord kind)) : (store.withTable kind table).table kind = table := by
  cases kind with
  | channel => exact nomatch given
  | _ => rfl

theorem logs_withTable (store : WorkflowStore) (table : Table (WorkflowRecord kind)) :
    (store.withTable kind table).logs = store.logs := by
  cases kind <;> rfl

theorem issued_withTable (store : WorkflowStore) (table : Table (WorkflowRecord kind)) :
    (store.withTable kind table).issued = store.issued := by
  cases kind <;> rfl

/-- The store after an update of a record that is on file. -/
def merging (store : WorkflowStore) (now : Timestamp) (given : WorkflowRecord kind) :
    WorkflowStore :=
  store.withTable kind
    ((store.table kind).modify given.id (given.merged now) (given.id_merged now))

/-- What an update does that answers with `returned`. -/
structure Revises (store after : WorkflowStore) (now : Timestamp)
    (given returned : WorkflowRecord kind) : Prop where
  /-- The record on file keeps its identifier, its owner and its creation, and takes all the rest
  over, with the instant of the update as its stamp. -/
  record : ∃ held, (store.table kind).get? given.id = some held ∧
    (after.table kind).get? given.id = some (given.merged now held)
  /-- All other records of all tables stay as they are. -/
  others : ∀ other (id : Id other), (⟨other, id⟩ : Σ kind, Id kind) ≠ ⟨kind, given.id⟩ →
    (after.table other).get? id = (store.table other).get? id
  logs : after.logs = store.logs
  issued : after.issued = store.issued
  /-- The answer is the record on file if owner and creation were handed in as they were. -/
  answer : ∀ held, (store.table kind).get? given.id = some held → given.owner? = held.owner? →
    given.createdOn = held.createdOn → (after.table kind).get? given.id = some returned

end WorkflowStore

/-! ## The four updates -/

namespace WorkflowStore

variable {store after : WorkflowStore} {now : Timestamp}

/-- An accepted write found the record on file and merged what it was given into it. -/
def Accepts (store after : WorkflowStore) (now : Timestamp) (kind : IdKind)
    (given : WorkflowRecord kind) : Prop :=
  (store.table kind).contains given.id = true ∧ after = store.merging now given

/-- A write of a record that has to be on file; it fails with the given error if it is not. -/
def overwrite (store : WorkflowStore) (now : Timestamp) (kind : IdKind)
    (given : WorkflowRecord kind) (missing : StoreError) :
    Except StoreError Unit × WorkflowStore :=
  if (store.table kind).contains given.id then (.ok (), store.merging now given)
  else (.error missing, store)

theorem accepts_of_overwrite {kind : IdKind} {given : WorkflowRecord kind} {missing : StoreError}
    {value : Unit} (accepted : store.overwrite now kind given missing = (.ok value, after)) :
    store.Accepts after now kind given := by
  unfold overwrite at accepted
  split at accepted
  · rename_i held
    cases accepted
    exact ⟨held, rfl⟩
  · cases accepted

theorem updateWorkflow_eq (store : WorkflowStore) (now : Timestamp) (given : Workflow) :
    store.updateWorkflow { given with updatedOn := now } =
      store.overwrite now .workflow given (.missingRow "update_workflow" given.id.text) := rfl

theorem updateNode_eq (store : WorkflowStore) (now : Timestamp) (given : Node) :
    store.updateNode { given with updatedOn := now } =
      store.overwrite now .node given
        (.missingRow "update_workflow_version_node" given.id.text) := rfl

theorem updateLink_eq (store : WorkflowStore) (now : Timestamp) (given : Link) :
    store.updateLink { given with updatedOn := now } =
      store.overwrite now .link given
        (.missingRow "update_workflow_version_node_link" given.id.text) := rfl

/-- The number of a version is checked before anything else. -/
theorem updateVersion_eq (store : WorkflowStore) (now : Timestamp) (given : Version) :
    store.updateVersion { given with updatedOn := now } =
      if store.versionTaken given.workflowId given.number (some given.id) then
        (.error (numberTaken "update_workflow_version" given.workflowId given.number), store)
      else
        store.overwrite now .version given
          (.missingRow "update_workflow_version" given.id.text) := rfl

end WorkflowStore

namespace WorkflowRecord

variable {store after : WorkflowStore} {kind : IdKind} {now : Timestamp}

/-- The answer to an update is what was handed in, not what is on file. -/
theorem written_of_ok {α : Type} {request : WorkflowCall} {stamped returned : α}
    (yields : outcome (ask request >>= fun _ => pure stamped) store = (.ok returned, after)) :
    returned = stamped ∧ ∃ value, WorkflowStore.handler request store = (.ok value, after) := by
  rcases outcome_bind_eq_ok yields with ⟨value, between, answers, done⟩
  cases done
  exact ⟨rfl, value, handler_of_outcome_ask answers⟩

/-- Whatever is checked before, an update that succeeds makes its one write. -/
theorem update_of_ok {given returned : WorkflowRecord kind}
    (yields : outcome (given.update now) store = (.ok returned, after)) :
    returned = given.stamped now ∧ store.Accepts after now kind given := by
  cases kind with
  | workflow =>
    have yields : outcome (Workflow.update now given) store = (.ok returned, after) := yields
    rcases written_of_ok yields with ⟨answer, _, accepted⟩
    have accepted := (store.updateWorkflow_eq now given).symm.trans accepted
    exact ⟨answer, WorkflowStore.accepts_of_overwrite accepted⟩
  | version =>
    have yields : outcome (Version.update now given) store = (.ok returned, after) := yields
    rcases written_of_ok yields with ⟨answer, _, accepted⟩
    have accepted := (store.updateVersion_eq now given).symm.trans accepted
    split at accepted
    · cases accepted
    · exact ⟨answer, WorkflowStore.accepts_of_overwrite accepted⟩
  | node =>
    have yields : outcome (Node.update now given) store = (.ok returned, after) := yields
    rcases outcome_bind_eq_ok yields with ⟨_, between, checked, yields⟩
    rw [WorkflowProgram.outcome_ofExcept] at checked
    rcases Prod.mk.inj checked with ⟨_, rfl⟩
    rcases written_of_ok yields with ⟨answer, _, accepted⟩
    have accepted := (store.updateNode_eq now given).symm.trans accepted
    exact ⟨answer, WorkflowStore.accepts_of_overwrite accepted⟩
  | link =>
    have yields : outcome (Link.update now given) store = (.ok returned, after) := yields
    unfold Link.update at yields
    rcases given.outcome_checkEnds store with ⟨_, _, passed⟩ | ⟨_, error, failed⟩
    · rw [WorkflowProgram.outcome_bind_of_ok passed] at yields
      rcases written_of_ok yields with ⟨answer, _, accepted⟩
      have accepted := (store.updateLink_eq now given).symm.trans accepted
      exact ⟨answer, WorkflowStore.accepts_of_overwrite accepted⟩
    · rw [WorkflowProgram.outcome_bind_of_error failed] at yields
      cases yields
  | channel => exact nomatch given

/-- An update that succeeds, whatever the store holds and whatever is handed in, changes one record
and answers with what was handed in. -/
theorem updates_exactly (store after : WorkflowStore) (now : Timestamp) {kind : IdKind}
    (given returned : WorkflowRecord kind)
    (updates : outcome (given.update now) store = (.ok returned, after)) :
    store.Revises after now given returned := by
  rcases update_of_ok updates with ⟨rfl, contains, rfl⟩
  rcases Option.isSome_iff_exists.mp contains with ⟨held, found⟩
  have filed : ((store.merging now given).table kind).get? given.id =
      some (given.merged now held) := by
    rw [WorkflowStore.merging, WorkflowStore.table_withTable store given, Table.get?_modify,
      if_pos rfl, found]
    rfl
  refine ⟨⟨held, found, filed⟩, ?_, store.logs_withTable _, store.issued_withTable _, ?_⟩
  · intro other id different
    by_cases same : other = kind
    · subst same
      have spared : id ≠ given.id := fun here => different (here ▸ rfl)
      rw [WorkflowStore.merging, WorkflowStore.table_withTable store given, Table.get?_modify,
        if_neg spared]
    · rw [WorkflowStore.merging, WorkflowStore.table_withTable_of_ne store _ same]
  · intro record stored owned made
    cases found.symm.trans stored
    have named : held.id = given.id := (Table.get?_eq_some_iff.mp found).2
    rw [filed, merged_eq_stamped now named owned made]

/-- The version that is handed in names a workflow that does not own it and an instant at which it
was not made. -/
theorem updates_exactly_foreign :
    let store := WorkflowEdit.applyAll .empty (WorkflowEdit.atOnce
      [.createNamed "fees", .createNamed "other", .cloneOrCreateVersion ⟨1⟩ 1 "first"])
    let given : WorkflowRecord .version :=
      ({ workflowId := ⟨2⟩, number := 4, name := "fourth", status := .active,
          createdOn := ⟨7, 0⟩, updatedOn := ⟨8, 0⟩, id := ⟨3⟩ } : Version)
    let after := (outcome (given.update ⟨60, 0⟩) store).2
    outcome (given.update ⟨60, 0⟩) store = (.ok (given.stamped ⟨60, 0⟩), after) ∧
      store.Revises after ⟨60, 0⟩ given (given.stamped ⟨60, 0⟩) ∧
      after.version? ⟨3⟩ = some
        { workflowId := ⟨1⟩, number := 4, name := "fourth", status := .active,
          createdOn := ⟨0, 0⟩, updatedOn := ⟨60, 0⟩, id := ⟨3⟩ } := by
  intro store given after
  have updates : outcome (given.update ⟨60, 0⟩) store = (.ok (given.stamped ⟨60, 0⟩), after) := rfl
  exact ⟨updates, updates_exactly store after ⟨60, 0⟩ given _ updates, by decide +kernel⟩

end WorkflowRecord

end NodeSteward
