import NodeSteward.Proofs.Workflow.Change

/-!
# An edit that fails changes nothing

An edit looks at the store as often as it has to, and writes to it once at most, at the very end.
A write that the store refuses is a step that leaves all tables, the log and the count of
identifiers as they were, and once a write is accepted there is nothing left that could fail.  So an
edit that ends with an error has changed nothing, whether a check of its own failed, a rule of the
store, or the storage.

That the write comes last is a matter of the text of an edit, and holds whatever the store answers.
-/

namespace NodeSteward

namespace WorkflowCall

/-- The call only looks something up. -/
def Reads : WorkflowCall → Prop
  | getWorkflow _ | getOwner _ | listWorkflows => True
  | getVersion _ | listVersions _ | findVersion _ _ | latestVersion _ | activeVersions => True
  | getNode _ | rootNodes _ => True
  | getLink _ | parentLinks _ | childLinks _ => True
  | logsForNode _ _ | logsForWorkflow _ _ => True
  | _ => False

end WorkflowCall

/-- Answers calls in such a way that look-ups and failed calls leave alone what is viewed. -/
structure Spares {σ τ : Type} (handler : Handler workflowCalls σ) (view : σ → τ) : Prop where
  reads : ∀ {request : WorkflowCall}, request.Reads → ∀ state,
    view (handler request state).2 = view state
  refused : ∀ {request : WorkflowCall} {state : σ} {cause : StoreError},
    (handler request state).1 = .error cause → view (handler request state).2 = view state

namespace WorkflowStore

variable {store : WorkflowStore}

theorem handler_of_reads {request : WorkflowCall} (reads : request.Reads) (store : WorkflowStore) :
    (handler request store).2 = store := by
  cases request <;> first | rfl | exact reads.elim

/-- Every check of a write comes before its first change. -/
theorem handler_of_error {request : WorkflowCall} {cause : StoreError}
    (refused : (handler request store).1 = .error cause) : (handler request store).2 = store := by
  revert refused
  cases request with
  | updateWorkflow workflow =>
    rw [handler, updateWorkflow]
    split
    · rintro ⟨⟩
    · exact fun _ => rfl
  | insertVersion version =>
    rw [handler, insertVersion]
    split
    · exact fun _ => rfl
    split
    · exact fun _ => rfl
    · rintro ⟨⟩
  | updateVersion version =>
    rw [handler, updateVersion]
    split
    · exact fun _ => rfl
    split
    · rintro ⟨⟩
    · exact fun _ => rfl
  | insertNode node =>
    rw [handler, insertNode]
    split
    · rintro ⟨⟩
    · exact fun _ => rfl
  | updateNode node =>
    rw [handler, updateNode]
    split
    · rintro ⟨⟩
    · exact fun _ => rfl
  | insertLink link =>
    rw [handler, insertLink]
    split
    · rintro ⟨⟩
    · exact fun _ => rfl
  | updateLink link =>
    rw [handler, updateLink]
    split
    · rintro ⟨⟩
    · exact fun _ => rfl
  | insertLog entry =>
    rw [handler, insertLog]
    split
    · exact fun _ => rfl
    · rintro ⟨⟩
  | _ => rintro ⟨⟩

theorem spares_handler : Spares handler (id : WorkflowStore → WorkflowStore) where
  reads reads store := handler_of_reads reads store
  refused refused := handler_of_error refused

/-- How the store answers where failures are arranged. -/
def faultyHandler : Handler workflowCalls (Faulty WorkflowStore) :=
  Faulty.handler WorkflowCall.operation (fun _ error => .error error) handler

/-- A failure that is arranged does not reach the store. -/
theorem spares_faultyHandler : Spares faultyHandler Faulty.store where
  reads {request} reads state := by
    rw [faultyHandler, Faulty.handler]
    dsimp only
    split
    · rfl
    · exact handler_of_reads reads state.store
  refused {request state cause} refused := by
    revert refused
    rw [faultyHandler, Faulty.handler]
    dsimp only
    split
    · exact fun _ => rfl
    · exact fun refused => handler_of_error refused

end WorkflowStore

variable {α β ε : Type}

/-- A program that reads, and then may write once: it succeeds if the write does, and otherwise it
fails. -/
inductive WritesLast : Program workflowCalls (Except ε α) → Prop
  | done (result : Except ε α) : WritesLast (.done result)
  | read {request : WorkflowCall}
    {next : Except StoreError request.Value → Program workflowCalls (Except ε α)}
    (reads : request.Reads) (later : ∀ answer, WritesLast (next answer)) :
    WritesLast (.call request next)
  | write {request : WorkflowCall}
    {next : Except StoreError request.Value → Program workflowCalls (Except ε α)}
    (accepted : ∀ value, ∃ result, next (.ok value) = .done (.ok result))
    (refused : ∀ cause, ∃ error, next (.error cause) = .done (.error error)) :
    WritesLast (.call request next)

namespace WritesLast

/-- A failed program that writes last leaves alone what failed calls leave alone. -/
theorem unchanged {σ τ : Type} {handler : Handler workflowCalls σ} {view : σ → τ}
    (spares : Spares handler view) {program : Program workflowCalls (Except ε α)}
    (last : WritesLast program) {state : σ} {error : ε}
    (failed : (program.run handler state).1 = .error error) :
    view (program.run handler state).2 = view state := by
  induction last generalizing state with
  | done result => rfl
  | read reads _ ih => exact (ih _ failed).trans (spares.reads reads state)
  | @write request next accepted refused =>
    rw [Program.run] at failed ⊢
    cases answered : (handler request state).1 with
    | ok value =>
      rcases accepted value with ⟨result, ended⟩
      rw [answered, ended] at failed
      cases failed
    | error cause =>
      rcases refused cause with ⟨_, ended⟩
      rw [ended]
      exact spares.refused answered

theorem ask (request : WorkflowCall) : WritesLast (WorkflowProgram.ask request).run :=
  .write (fun value => ⟨value, rfl⟩) (fun cause => ⟨.store cause, rfl⟩)

theorem ask_map (request : WorkflowCall) (shape : request.Value → α) :
    WritesLast (WorkflowProgram.ask request >>= fun value => pure (shape value)).run :=
  .write (fun value => ⟨shape value, rfl⟩) (fun cause => ⟨.store cause, rfl⟩)

/-- What only reads may come first. -/
theorem behind {program : Program workflowCalls (Except WorkflowError α)}
    {next : Except WorkflowError α → Program workflowCalls (Except WorkflowError β)}
    (only : program.Only WorkflowCall.Reads) (rest : ∀ value, WritesLast (next value)) :
    WritesLast (program >>= next) := by
  induction only with
  | done result => exact rest result
  | call reads _ ih => exact .read reads ih

theorem exceptBehind {program : WorkflowProgram α} {next : α → WorkflowProgram β}
    (only : program.run.Only WorkflowCall.Reads) (rest : ∀ value, WritesLast (next value).run) :
    WritesLast (program >>= next).run := by
  refine behind only ?_
  rintro (error | value)
  · exact .done _
  · exact rest value

end WritesLast

/-! ## The edits -/

theorem NewLink.only_checkEnds (link : NewLink) : link.checkEnds.run.Only WorkflowCall.Reads := by
  have one : ∀ id, (checkEnd link.versionId id).run.Only WorkflowCall.Reads := by
    intro id
    refine .exceptBind (WorkflowProgram.only_ask trivial) fun node => ?_
    dsimp only
    split <;> exact .done _
  exact .exceptBind (one _) fun _ => one _

theorem WorkflowProgram.only_ofExcept {Allowed : WorkflowCall → Prop}
    (result : Except WorkflowError α) :
    (ofExcept result : WorkflowProgram α).run.Only Allowed := by
  cases result <;> exact .done _

namespace WorkflowEdit

open WorkflowProgram (only_ask only_ofExcept)

/-- Whatever an edit has to check, it checks before it writes. -/
theorem writesLast_program (now : Timestamp) (edit : WorkflowEdit) :
    WritesLast (edit.program now).run := by
  cases edit with
  | createWorkflow workflow => exact .ask _
  | updateWorkflow workflow => exact .ask_map _ _
  | deleteWorkflow id => exact .ask _
  | cloneOrCreateVersion workflowId number name =>
    have looks : (Version.copySource workflowId number).run.Only WorkflowCall.Reads := by
      rw [Version.copySource]
      split <;> exact only_ask trivial
    refine .exceptBehind looks ?_
    rintro (none | source)
    · exact .ask _
    · exact .done _
  | updateVersion version => exact .ask_map _ _
  | deleteVersion id => exact .ask _
  | addNode node => exact .exceptBehind (only_ofExcept _) fun _ => .ask _
  | updateNode node => exact .exceptBehind (only_ofExcept _) fun _ => .ask_map _ _
  | deleteNode id => exact .ask _
  | addLink link => exact .exceptBehind link.only_checkEnds fun _ => .ask _
  | updateLink link => exact .exceptBehind link.only_checkEnds fun _ => .ask_map _ _
  | deleteLink id => exact .ask _
  | appendLog entry => exact .ask_map _ _

/-- An edit that ends with an error leaves the store as it was, with all tables, the log and the
count of identifiers; and so it does when some of its calls are arranged to fail. -/
theorem refused_edit_changes_nothing (now : Timestamp) (edit : WorkflowEdit)
    (error : WorkflowError) :
    (∀ store : WorkflowStore,
      ((edit.program now).run.run WorkflowStore.handler store).1 = .error error →
        ((edit.program now).run.run WorkflowStore.handler store).2 = store) ∧
      ∀ state : Faulty WorkflowStore,
        ((edit.program now).run.run WorkflowStore.faultyHandler state).1 = .error error →
          ((edit.program now).run.run WorkflowStore.faultyHandler state).2.store = state.store :=
  ⟨fun _ failed => (writesLast_program now edit).unchanged WorkflowStore.spares_handler failed,
    fun _ failed =>
      (writesLast_program now edit).unchanged WorkflowStore.spares_faultyHandler failed⟩

/-- A link about which only its version and its ends matter. -/
def linkIn (version : VersionId) (parent child : NodeId) : WorkflowEdit :=
  .addLink
    { versionId := version, name := "", parent, output := 0, child, input := 0, visibility := "",
      createdOn := ⟨0, 0⟩, updatedOn := ⟨0, 0⟩ }

/-- A copy that cannot be made yet, a number that another version has, a link to a node that does
not exist, and a version whose insertion is arranged to fail once it is clear that its number is
free: the look-ups before each of these errors are answered, and the store stays as it was. -/
theorem refused_edit_changes_nothing_versions :
    let store := applyAll .empty (atOnce
      [createNamed "patrol", .cloneOrCreateVersion ⟨1⟩ 1 "", .cloneOrCreateVersion ⟨1⟩ 2 ""])
    let run (edit : WorkflowEdit) := (edit.program ⟨0, 0⟩).run.run WorkflowStore.handler store
    let copy := cloneOrCreateVersion ⟨1⟩ 0 ""
    let clash := releaseOf ⟨1⟩ 2 ⟨2⟩
    let loose := linkIn ⟨2⟩ ⟨7⟩ ⟨7⟩
    let faulty := ((cloneOrCreateVersion ⟨1⟩ 3 "").program ⟨0, 0⟩).run.run
      WorkflowStore.faultyHandler ⟨store, [⟨"insert_version", 0, none⟩]⟩
    store.issued = 3 ∧
      (run copy).1 = .error (.notImplemented "clone_workflow_version") ∧ (run copy).2 = store ∧
      (run clash).1 =
        .error (.store (WorkflowStore.numberTaken "update_workflow_version" ⟨1⟩ 2)) ∧
      (run clash).2 = store ∧
      (run loose).1 = .error (.linkVersionMismatch ⟨2⟩ ⟨7⟩ none) ∧ (run loose).2 = store ∧
      faulty.1 = .error (.store (.injected "insert_version")) ∧ faulty.2.store = store := by
  intro store run copy clash loose faulty
  have copyFails : (run copy).1 = .error (.notImplemented "clone_workflow_version") := rfl
  have clashFails : (run clash).1 =
      .error (.store (WorkflowStore.numberTaken "update_workflow_version" ⟨1⟩ 2)) := rfl
  have looseFails : (run loose).1 = .error (.linkVersionMismatch ⟨2⟩ ⟨7⟩ none) := rfl
  have insertFails : faulty.1 = .error (.store (.injected "insert_version")) := rfl
  exact ⟨rfl, copyFails, (refused_edit_changes_nothing _ _ _).1 store copyFails,
    clashFails, (refused_edit_changes_nothing _ _ _).1 store clashFails,
    looseFails, (refused_edit_changes_nothing _ _ _).1 store looseFails,
    insertFails, (refused_edit_changes_nothing _ _ _).2 _ insertFails⟩

end WorkflowEdit

end NodeSteward
