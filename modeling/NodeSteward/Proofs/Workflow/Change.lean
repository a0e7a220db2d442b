import Mathlib.Data.List.Induction
import NodeSteward.Proofs.Workflow.Cascade
import NodeSteward.Proofs.Workflow.Outcome
import NodeSteward.Workflow.Edit

/-!
# What an edit can do to the store

An edit that nothing disturbs leaves the store as it is, or changes it in the one way that is
listed here for it, after the checks that stand before the write.  A record that is overwritten
keeps its identifier and its owner.  A property of every history of edits follows from the changes
alone: it has to hold of the empty store, and every change has to keep it.  Where some edits do not
keep it, it holds throughout the histories that make none of these.
-/

namespace NodeSteward

open WorkflowProgram (ask outcome)

namespace WorkflowStore

/-- A node is stored in a version. -/
def InVersion (store : WorkflowStore) (version : VersionId) (id : NodeId) : Prop :=
  ∃ node ∈ store.nodes.rows, node.id = id ∧ node.versionId = version

/-- What each edit can leave: the store as it is, or the store after its one write.  The
conditions of a write are the checks that came before it. -/
inductive Changes (store : WorkflowStore) : WorkflowEdit → WorkflowStore → Prop where
  | nothing (edit : WorkflowEdit) : Changes store edit store
  | workflowAdded (given : NewWorkflow) (workflow : NewWorkflow) :
    Changes store (.createWorkflow given)
      { store with
        issued := store.issued + 1
        workflows := store.workflows.insert (workflow.withId (store.nextId .workflow)) }
  | workflowWritten (given : Workflow) (change : Workflow → Workflow)
    (keeps : ∀ held, Filed.idOf (change held) = (Filed.idOf held : WorkflowId)) :
    Changes store (.updateWorkflow given)
      { store with workflows := store.workflows.modify given.id change keeps }
  | workflowDeleted (id : WorkflowId) :
    Changes store (.deleteWorkflow id)
      { store.withoutVersions (store.ownsVersion id) with
        workflows := store.workflows.erase id }
  | versionAdded (version : NewVersion) (name : String)
    (owned : store.workflows.contains version.workflowId = true)
    (free : store.versionTaken version.workflowId version.number none = false) :
    Changes store (.cloneOrCreateVersion version.workflowId version.number name)
      { store with
        issued := store.issued + 1
        versions := store.versions.insert (version.withId (store.nextId .version)) }
  /-- The number is looked for in the workflow that the written version names. -/
  | versionWritten (given : Version) (change : Version → Version)
    (keeps : ∀ held, Filed.idOf (change held) = (Filed.idOf held : VersionId))
    (owner : ∀ held, (change held).workflowId = held.workflowId)
    (renumbers : ∀ held, (change held).number = given.number)
    (free : store.versionTaken given.workflowId given.number (some given.id) = false) :
    Changes store (.updateVersion given)
      { store with versions := store.versions.modify given.id change keeps }
  | versionDeleted (id : VersionId) :
    Changes store (.deleteVersion id) (store.withoutVersions (fun version => version = id))
  | nodeAdded (given : NewNode) (node : NewNode) (same : node.versionId = given.versionId)
    (owned : store.versions.contains given.versionId = true) :
    Changes store (.addNode given)
      { store with
        issued := store.issued + 1
        nodes := store.nodes.insert (node.withId (store.nextId .node)) }
  | nodeWritten (given : Node) (change : Node → Node)
    (keeps : ∀ held, Filed.idOf (change held) = (Filed.idOf held : NodeId))
    (owner : ∀ held, (change held).versionId = held.versionId) :
    Changes store (.updateNode given)
      { store with nodes := store.nodes.modify given.id change keeps }
  | nodeDeleted (id : NodeId) :
    Changes store (.deleteNode id) (store.withoutNodes (fun node => node = id))
  | linkAdded (given : NewLink) (link : NewLink)
    (same : link.versionId = given.versionId ∧ link.parent = given.parent ∧
      link.child = given.child)
    (parent : store.InVersion given.versionId given.parent)
    (child : store.InVersion given.versionId given.child) :
    Changes store (.addLink given)
      { store with
        issued := store.issued + 1
        links := store.links.insert (link.withId (store.nextId .link)) }
  /-- The ends are looked for in the version that the written link names. -/
  | linkWritten (given : Link) (change : Link → Link)
    (keeps : ∀ held, Filed.idOf (change held) = (Filed.idOf held : LinkId))
    (owner : ∀ held, (change held).versionId = held.versionId)
    (joins : ∀ held, (change held).parent = given.parent ∧ (change held).child = given.child)
    (parent : store.InVersion given.versionId given.parent)
    (child : store.InVersion given.versionId given.child) :
    Changes store (.updateLink given)
      { store with links := store.links.modify given.id change keeps }
  | linkDeleted (id : LinkId) :
    Changes store (.deleteLink id) { store with links := store.links.erase id }
  | logAdded (given : LogEntry) (entry : LogEntry) :
    Changes store (.appendLog given) { store with logs := store.logs ++ [entry] }

namespace Changes

variable (store : WorkflowStore) (now : Timestamp)

theorem of_updateWorkflow (given : Workflow) :
    store.Changes (.updateWorkflow given)
      (store.updateWorkflow { given with updatedOn := now }).2 := by
  unfold updateWorkflow
  split
  · exact .workflowWritten given _ _
  · exact .nothing _

theorem of_deleteWorkflow (id : WorkflowId) :
    store.Changes (.deleteWorkflow id) (store.deleteWorkflow id).2 := by
  by_cases held : store.workflows.contains id = true
  · rw [deleteWorkflow_of_contains held]
    exact .workflowDeleted id
  · rw [deleteWorkflow, if_neg held]
    exact .nothing _

theorem of_insertVersion (version : NewVersion) (name : String) :
    store.Changes (.cloneOrCreateVersion version.workflowId version.number name)
      (store.insertVersion version).2 := by
  unfold insertVersion
  split
  · exact .nothing _
  · split
    · exact .nothing _
    · rename_i owned free
      exact .versionAdded version name (by simpa using owned) (by simpa using free)

theorem of_updateVersion (given : Version) :
    store.Changes (.updateVersion given)
      (store.updateVersion { given with updatedOn := now }).2 := by
  unfold updateVersion
  split
  · exact .nothing _
  · rename_i free
    split
    · exact .versionWritten given _ _ (fun _ => rfl) (fun _ => rfl) (by simpa using free)
    · exact .nothing _

theorem of_deleteVersion (id : VersionId) :
    store.Changes (.deleteVersion id) (store.deleteVersion id).2 := by
  by_cases held : store.versions.contains id = true
  · rw [deleteVersion_of_contains held]
    exact .versionDeleted id
  · rw [deleteVersion, if_neg held]
    exact .nothing _

theorem of_insertNode (given node : NewNode) (same : node.versionId = given.versionId) :
    store.Changes (.addNode given) (store.insertNode node).2 := by
  unfold insertNode
  split
  · rename_i owned
    exact .nodeAdded given node same (same ▸ owned)
  · exact .nothing _

theorem of_updateNode (given : Node) :
    store.Changes (.updateNode given) (store.updateNode { given with updatedOn := now }).2 := by
  unfold updateNode
  split
  · exact .nodeWritten given _ _ (fun _ => rfl)
  · exact .nothing _

theorem of_deleteNode (id : NodeId) :
    store.Changes (.deleteNode id) (store.deleteNode id).2 := by
  by_cases held : store.nodes.contains id = true
  · rw [deleteNode_of_contains held]
    exact .nodeDeleted id
  · rw [deleteNode, if_neg held]
    exact .nothing _

theorem of_insertLink (given link : NewLink)
    (same : link.versionId = given.versionId ∧ link.parent = given.parent ∧
      link.child = given.child)
    (parent : store.InVersion given.versionId given.parent)
    (child : store.InVersion given.versionId given.child) :
    store.Changes (.addLink given) (store.insertLink link).2 := by
  unfold insertLink
  split
  · exact .linkAdded given link same parent child
  · exact .nothing _

theorem of_updateLink (given : Link) (parent : store.InVersion given.versionId given.parent)
    (child : store.InVersion given.versionId given.child) :
    store.Changes (.updateLink given) (store.updateLink { given with updatedOn := now }).2 := by
  unfold updateLink
  split
  · exact .linkWritten given _ _ (fun _ => rfl) (fun _ => ⟨rfl, rfl⟩) parent child
  · exact .nothing _

theorem of_deleteLink (id : LinkId) :
    store.Changes (.deleteLink id) (store.deleteLink id).2 := by
  unfold deleteLink
  split
  · exact .linkDeleted id
  · exact .nothing _

theorem of_insertLog (given entry : LogEntry) :
    store.Changes (.appendLog given) (store.insertLog entry).2 := by
  unfold insertLog
  split
  · exact .nothing _
  · exact .logAdded given entry

end Changes

end WorkflowStore

namespace NewLink

/-- The check of one end passes for the nodes of the version alone, and touches nothing. -/
theorem outcome_checkEnd (version : VersionId) (id : NodeId) (store : WorkflowStore) :
    (store.InVersion version id ∧ outcome (checkEnd version id) store = (.ok (), store)) ∨
      (¬ store.InVersion version id ∧
        ∃ error, outcome (checkEnd version id) store = (.error error, store)) := by
  have asked : outcome (checkEnd version id) store = _ := WorkflowProgram.outcome_ask_bind rfl _
  rw [asked]
  dsimp only
  by_cases owned : (store.node? id).map (fun node => node.versionId) = some version
  · rw [if_pos owned]
    rcases Option.map_eq_some_iff.mp owned with ⟨node, found, same⟩
    rcases Table.get?_eq_some_iff.mp found with ⟨member, named⟩
    exact Or.inl ⟨⟨node, member, named, same⟩, rfl⟩
  · rw [if_neg owned]
    refine Or.inr ⟨?_, _, rfl⟩
    rintro ⟨node, member, named, same⟩
    have found : store.node? id = some node := Table.get?_eq_some_iff.mpr ⟨member, named⟩
    exact owned (by rw [found, Option.map_some, same])

theorem outcome_checkEnds (link : NewLink) (store : WorkflowStore) :
    (store.InVersion link.versionId link.parent ∧ store.InVersion link.versionId link.child ∧
      outcome link.checkEnds store = (.ok (), store)) ∨
      (¬ (store.InVersion link.versionId link.parent ∧
          store.InVersion link.versionId link.child) ∧
        ∃ error, outcome link.checkEnds store = (.error error, store)) := by
  unfold checkEnds
  rcases outcome_checkEnd link.versionId link.parent store with
    ⟨parent, passed⟩ | ⟨outside, error, failed⟩
  · rw [WorkflowProgram.outcome_bind_of_ok passed]
    rcases outcome_checkEnd link.versionId link.child store with
      ⟨child, passed⟩ | ⟨outside, error, failed⟩
    · exact Or.inl ⟨parent, child, passed⟩
    · exact Or.inr ⟨fun both => outside both.2, error, failed⟩
  · exact Or.inr
      ⟨fun both => outside both.1, error, WorkflowProgram.outcome_bind_of_error failed _⟩

end NewLink

/-- Where one step keeps a property exactly if it does not break it, the property holds in all the
states that a run passes through exactly if none of its steps breaks it. -/
theorem foldl_throughout_iff {σ τ : Type} {step : σ → τ → σ} {Holds : σ → Prop}
    {Breaks : σ → τ → Prop}
    (one : ∀ before next, Holds before → (Holds (step before next) ↔ ¬ Breaks before next))
    {start : σ} (holds : Holds start) (steps : List τ) :
    (∀ before after, steps = before ++ after → Holds (before.foldl step start)) ↔
      ∀ before next after, steps = before ++ next :: after →
        ¬ Breaks (before.foldl step start) next := by
  have concat : ∀ before next,
      (before ++ [next]).foldl step start = step (before.foldl step start) next :=
    fun before next => by rw [List.foldl_append]; rfl
  constructor
  · intro throughout before next after split
    have here := throughout before (next :: after) split
    have behind := throughout (before ++ [next]) after (by rw [split, List.append_assoc]; rfl)
    rw [concat] at behind
    exact (one _ next here).mp behind
  · intro sound before
    -- the last step of a part is the one that is known not to break anything
    induction before using List.reverseRecOn with
    | nil =>
      intro _ _
      exact holds
    | append_singleton before next ih =>
      intro after split
      have split : steps = before ++ next :: after := by
        rw [split, List.append_assoc]
        rfl
      rw [concat]
      exact (one _ next (ih (next :: after) split)).mpr (sound before next after split)

namespace WorkflowEdit

variable {store : WorkflowStore}

/-- A write whose result is only reshaped leaves the store as the write left it. -/
theorem snd_outcome_ask_bind_pure {β : Type} (request : WorkflowCall) (shape : request.Value → β)
    (store : WorkflowStore) :
    (outcome (ask request >>= fun value => pure (shape value)) store).2 =
      (WorkflowStore.handler request store).2 := by
  rw [WorkflowProgram.outcome_bind_pure, WorkflowProgram.outcome_ask]

theorem apply_updateVersion (store : WorkflowStore) (now : Timestamp) (version : Version) :
    (updateVersion version).apply store now =
      (store.updateVersion { version with updatedOn := now }).2 :=
  snd_outcome_ask_bind_pure _ _ _

/-- A link is written only after the check on its ends. -/
theorem apply_updateLink (store : WorkflowStore) (now : Timestamp) (given : Link) :
    (store.InVersion given.versionId given.parent ∧ store.InVersion given.versionId given.child ∧
      (updateLink given).apply store now =
        (store.updateLink { given with updatedOn := now }).2) ∨
      (¬ (store.InVersion given.versionId given.parent ∧
          store.InVersion given.versionId given.child) ∧
        (updateLink given).apply store now = store) := by
  have run : (updateLink given).apply store now = (outcome (Link.update now given) store).2 := rfl
  rw [run]
  unfold Link.update
  rcases given.outcome_checkEnds store with ⟨parent, child, passed⟩ | ⟨outside, error, failed⟩
  · rw [WorkflowProgram.outcome_bind_of_ok passed]
    exact Or.inl ⟨parent, child, snd_outcome_ask_bind_pure _ _ _⟩
  · rw [WorkflowProgram.outcome_bind_of_error failed]
    exact Or.inr ⟨outside, rfl⟩

/-- A copy source is only looked for. -/
theorem outcome_copySource (store : WorkflowStore) (workflowId : WorkflowId) (number : Int32) :
    ∃ source, outcome (Version.copySource workflowId number) store = (.ok source, store) := by
  unfold Version.copySource
  by_cases draft : number = 0
  · rw [if_pos draft]
    exact ⟨_, rfl⟩
  · rw [if_neg draft]
    exact ⟨_, rfl⟩

/-- Either nothing was written, or a version of the given workflow and number was inserted. -/
theorem apply_cloneOrCreateVersion (store : WorkflowStore) (now : Timestamp)
    (workflowId : WorkflowId) (number : Int32) (name : String) :
    (cloneOrCreateVersion workflowId number name).apply store now = store ∨
      ∃ version : NewVersion, version.workflowId = workflowId ∧ version.number = number ∧
        (cloneOrCreateVersion workflowId number name).apply store now =
          (store.insertVersion version).2 := by
  rcases outcome_copySource store workflowId number with ⟨source, found⟩
  have run : (cloneOrCreateVersion workflowId number name).apply store now = _ :=
    congrArg Prod.snd (WorkflowProgram.outcome_bind_of_ok found _)
  rw [run]
  cases source with
  | some held => exact Or.inl rfl
  | none =>
    let version : NewVersion :=
      { workflowId, number, name := now.nameOr name, status := .inactive, createdOn := now,
        updatedOn := now }
    exact Or.inr ⟨version, rfl, rfl, rfl⟩

/-! ## Every edit is a change -/

theorem apply_changes (store : WorkflowStore) (now : Timestamp) (edit : WorkflowEdit) :
    store.Changes edit (edit.apply store now) := by
  cases edit with
  | createWorkflow given =>
    exact .workflowAdded given { given with createdOn := now, updatedOn := now }
  | updateWorkflow given =>
    have run : (updateWorkflow given).apply store now =
        (store.updateWorkflow { given with updatedOn := now }).2 :=
      snd_outcome_ask_bind_pure _ _ _
    rw [run]
    exact .of_updateWorkflow store now given
  | deleteWorkflow id => exact .of_deleteWorkflow store id
  | cloneOrCreateVersion workflowId number name =>
    rcases apply_cloneOrCreateVersion store now workflowId number name with
      same | ⟨version, rfl, rfl, run⟩
    · rw [same]
      exact .nothing _
    · rw [run]
      exact .of_insertVersion store version name
  | updateVersion given =>
    rw [apply_updateVersion]
    exact .of_updateVersion store now given
  | deleteVersion id => exact .of_deleteVersion store id
  | addNode given =>
    show store.Changes _ (outcome (Node.add now given) store).2
    unfold Node.add
    cases given.checkParameters none with
    | error error => exact .nothing _
    | ok parameters =>
      exact .of_insertNode store given
        { given with name := now.nameOr given.name, createdOn := now, updatedOn := now } rfl
  | updateNode given =>
    show store.Changes _ (outcome (Node.update now given) store).2
    unfold Node.update
    cases given.readParameters with
    | error error => exact .nothing _
    | ok parameters =>
      have passed : outcome (ofExcept (.ok parameters : Except WorkflowError Parameters)) store =
          (.ok parameters, store) := rfl
      rw [WorkflowProgram.outcome_bind_of_ok passed]
      dsimp only
      rw [snd_outcome_ask_bind_pure]
      exact .of_updateNode store now given
  | deleteNode id => exact .of_deleteNode store id
  | addLink given =>
    show store.Changes _ (outcome (Link.add now given) store).2
    unfold Link.add
    rcases given.outcome_checkEnds store with ⟨parent, child, passed⟩ | ⟨_, error, failed⟩
    · rw [WorkflowProgram.outcome_bind_of_ok passed]
      exact .of_insertLink store given
        { given with name := now.nameOr given.name, createdOn := now, updatedOn := now }
        ⟨rfl, rfl, rfl⟩ parent child
    · rw [WorkflowProgram.outcome_bind_of_error failed]
      exact .nothing _
  | updateLink given =>
    rcases apply_updateLink store now given with ⟨parent, child, run⟩ | ⟨_, run⟩
    · rw [run]
      exact .of_updateLink store now given parent child
    · rw [run]
      exact .nothing _
  | deleteLink id => exact .of_deleteLink store id
  | appendLog given =>
    have run : (appendLog given).apply store now =
        (store.insertLog { given with createdOn := now }).2 := snd_outcome_ask_bind_pure _ _ _
    rw [run]
    exact .of_insertLog store given _

/-- What every change keeps holds after every history of edits. -/
theorem applyAll_of_changes {Holds : WorkflowStore → Prop}
    (kept : ∀ (before after : WorkflowStore) (edit : WorkflowEdit), Holds before →
      before.Changes edit after → Holds after)
    (edits : List (Timestamp × WorkflowEdit)) (start : Holds store) :
    Holds (applyAll store edits) := by
  induction edits generalizing store with
  | nil => exact start
  | cons edit rest ih =>
    exact ih (kept _ _ _ start (apply_changes store edit.1 edit.2))

/-- Where one edit keeps a property exactly if it does not break it, the property holds in all the
states that a history passes through exactly if none of its edits breaks it. -/
theorem applyAll_throughout_iff {Holds : WorkflowStore → Prop}
    {Breaks : WorkflowStore → WorkflowEdit → Prop}
    (step : ∀ (before : WorkflowStore) (now : Timestamp) (edit : WorkflowEdit), Holds before →
      (Holds (edit.apply before now) ↔ ¬ Breaks before edit))
    (start : Holds store) (edits : List (Timestamp × WorkflowEdit)) :
    (∀ before after, edits = before ++ after → Holds (applyAll store before)) ↔
      ∀ before edit after, edits = before ++ edit :: after →
        ¬ Breaks (applyAll store before) edit.2 := by
  have one : ∀ (before : WorkflowStore) (edit : Timestamp × WorkflowEdit), Holds before →
      (Holds (edit.2.apply before edit.1) ↔ ¬ Breaks before edit.2) :=
    fun before edit => step before edit.1 edit.2
  exact foldl_throughout_iff one start edits

/-- A history of edits that are all made at one instant. -/
def atOnce (edits : List WorkflowEdit) : List (Timestamp × WorkflowEdit) :=
  edits.map (fun edit => (⟨0, 0⟩, edit))

/-- The creation of a workflow about which only its name matters. -/
def createNamed (name : String) : WorkflowEdit :=
  .createWorkflow
    { name, workflowType := 0, status := .active, createdOn := ⟨0, 0⟩, updatedOn := ⟨0, 0⟩ }

/-- The release of a version about which only its number matters. -/
def releaseOf (workflow : WorkflowId) (number : Int32) (id : VersionId) : WorkflowEdit :=
  .updateVersion
    { workflowId := workflow, number, name := "", status := .active, createdOn := ⟨0, 0⟩,
      updatedOn := ⟨0, 0⟩, id }

end WorkflowEdit

end NodeSteward
