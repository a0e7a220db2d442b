import NodeSteward.Workflow.Requests
import NodeSteward.Proofs.Crew

/-!
# Operations on workflows that nothing disturbs

The outcome of an operation is what it yields and the store that it leaves when it runs alone.
The lemmas here take an operation apart at its first call, so that later proofs follow its text:
a call that the store answers goes on with the answer, and a failure ends the operation.
-/

namespace NodeSteward

namespace WorkflowProgram

variable {α β : Type}

/-- What an operation yields, and the store after it, when nothing else uses the store. -/
def outcome (program : WorkflowProgram α) (store : WorkflowStore) :
    Except WorkflowError α × WorkflowStore :=
  program.run.run WorkflowStore.handler store

@[simp] theorem outcome_pure (value : α) (store : WorkflowStore) :
    outcome (pure value) store = (.ok value, store) := rfl

@[simp] theorem outcome_throw (error : WorkflowError) (store : WorkflowStore) :
    outcome (throw error : WorkflowProgram α) store = (.error error, store) := rfl

@[simp] theorem outcome_ofExcept (result : Except WorkflowError α) (store : WorkflowStore) :
    outcome (ofExcept result) store = (result, store) := by
  cases result <;> rfl

@[simp] theorem outcome_ask (request : WorkflowCall) (store : WorkflowStore) :
    outcome (ask request) store =
      ((WorkflowStore.handler request store).1.mapError .store,
        (WorkflowStore.handler request store).2) := rfl

theorem outcome_bind (program : WorkflowProgram α) (next : α → WorkflowProgram β)
    (store : WorkflowStore) :
    outcome (program >>= next) store =
      match outcome program store with
      | (.ok value, after) => outcome (next value) after
      | (.error error, after) => (.error error, after) := by
  unfold outcome
  rw [ExceptT.run_bind, Program.run_bind]
  rcases program.run.run WorkflowStore.handler store with ⟨answer, after⟩
  cases answer with
  | ok value => rfl
  | error error => rfl

/-- The rest of an operation whose first part yields a value. -/
theorem outcome_bind_of_ok {program : WorkflowProgram α} {value : α}
    {store after : WorkflowStore} (yields : outcome program store = (.ok value, after))
    (next : α → WorkflowProgram β) :
    outcome (program >>= next) store = outcome (next value) after := by
  rw [outcome_bind, yields]

/-- A failed part ends the operation. -/
theorem outcome_bind_of_error {program : WorkflowProgram α} {error : WorkflowError}
    {store after : WorkflowStore} (fails : outcome program store = (.error error, after))
    (next : α → WorkflowProgram β) :
    outcome (program >>= next) store = (.error error, after) := by
  rw [outcome_bind, fails]

/-- An operation that yields a value has yielded one in its first part, too. -/
theorem outcome_bind_eq_ok {program : WorkflowProgram α} {next : α → WorkflowProgram β}
    {value : β} {store after : WorkflowStore}
    (yields : outcome (program >>= next) store = (.ok value, after)) :
    ∃ first between, outcome program store = (.ok first, between) ∧
      outcome (next first) between = (.ok value, after) := by
  rw [outcome_bind] at yields
  revert yields
  rcases outcome program store with ⟨error | first, between⟩
  · nofun
  · exact fun yields => ⟨first, between, rfl, yields⟩

/-- An operation that only reshapes what it got. -/
theorem outcome_bind_pure (program : WorkflowProgram α) (shape : α → β) (store : WorkflowStore) :
    outcome (program >>= fun value => pure (shape value)) store =
      ((outcome program store).1.map shape, (outcome program store).2) := by
  rw [outcome_bind]
  rcases outcome program store with ⟨answer, after⟩
  cases answer with
  | ok value => rfl
  | error error => rfl

/-- A call that yields a value is one that the store answers. -/
theorem handler_of_outcome_ask {request : WorkflowCall} {value : request.Value}
    {store after : WorkflowStore} (yields : outcome (ask request) store = (.ok value, after)) :
    WorkflowStore.handler request store = (.ok value, after) := by
  rw [outcome_ask] at yields
  revert yields
  rcases WorkflowStore.handler request store with ⟨error | given, between⟩
  · nofun
  · rintro ⟨⟩
    rfl

/-- The rest of an operation after a call that the store answers. -/
theorem outcome_ask_bind {request : WorkflowCall} {value : request.Value}
    {store after : WorkflowStore}
    (answers : WorkflowStore.handler request store = (.ok value, after))
    (next : request.Value → WorkflowProgram β) :
    outcome (ask request >>= next) store = outcome (next value) after := by
  apply outcome_bind_of_ok
  rw [outcome_ask, answers]
  rfl

theorem only_ask {Allowed : WorkflowCall → Prop} {request : WorkflowCall}
    (allowed : Allowed request) : (ask request).run.Only Allowed :=
  .call allowed fun _ => .done _

end WorkflowProgram

end NodeSteward
