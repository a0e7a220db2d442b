import NodeSteward.StoreError

/-!
# Programs that call a store

An operation that works on a store does so by single calls, each of which is answered at once
and as a whole; between two calls others may change the store.  So an operation is kept as a
tree: it is done, or it makes a call and goes on according to the answer.  Running it alone
against a handler is one way to use the tree, taking turns with other programs is another.
-/

namespace NodeSteward

/-- The calls that can be made, and the type of the answer to each. -/
structure Interface where
  Call : Type
  Answer : Call → Type

/-- An operation as the calls it makes. -/
inductive Program (I : Interface) (α : Type) where
  | done (result : α)
  | call (request : I.Call) (next : I.Answer request → Program I α)

/-- How calls are answered, and what each answer does to the state. -/
abbrev Handler (I : Interface) (σ : Type) := (request : I.Call) → σ → I.Answer request × σ

namespace Program

variable {I : Interface} {α β σ : Type}

/-- Goes on with the result of a program. -/
def bind (program : Program I α) (next : α → Program I β) : Program I β :=
  match program with
  | .done result => next result
  | .call request answer => .call request (fun given => (answer given).bind next)

instance : Monad (Program I) where
  pure := .done
  bind := bind

/-- A single call. -/
def request (request : I.Call) : Program I (I.Answer request) :=
  .call request .done

/-- Runs a program alone: its calls are answered one after the other. -/
def run (handler : Handler I σ) : Program I α → σ → α × σ
  | .done result, state => (result, state)
  | .call request next, state =>
    run handler (next (handler request state).1) (handler request state).2

theorem run_bind (handler : Handler I σ) (program : Program I α) (next : α → Program I β)
    (state : σ) :
    (program >>= next).run handler state =
      (next (program.run handler state).1).run handler (program.run handler state).2 := by
  show (program.bind next).run handler state = _
  induction program generalizing state with
  | done result => rfl
  | call request answer ih => exact ih _ _

end Program

/-! ## Arranged failures -/

/-- Failures arranged for one operation: `spared` calls go through, then `failing` calls fail, or
all of them where there is no number, and those after them go through again. -/
structure FaultPlan where
  operation : String
  spared : Nat
  failing : Option Nat
  deriving DecidableEq, Repr

namespace FaultPlan

/-- Whether a call of the operation fails, and the plan for the calls after it. -/
def next (plan : FaultPlan) : Bool × FaultPlan :=
  if 0 < plan.spared then (false, { plan with spared := plan.spared - 1 })
  else
    match plan.failing with
    | none => (true, plan)
    | some 0 => (false, plan)
    | some (left + 1) => (true, { plan with failing := some left })

/-- Counts a call of `operation`, and tells whether it fails. -/
def nextAmong (operation : String) : List FaultPlan → Bool × List FaultPlan
  | [] => (false, [])
  | plan :: plans =>
    if plan.operation = operation then (plan.next.1, plan.next.2 :: plans)
    else
      let (fails, plans) := nextAmong operation plans
      (fails, plan :: plans)

/-- Arranges a plan in the place of an earlier one for the same operation. -/
def arrange (plan : FaultPlan) (plans : List FaultPlan) : List FaultPlan :=
  plan :: plans.filter (fun other => other.operation != plan.operation)

end FaultPlan

/-- A store together with the failures that are arranged for it. -/
structure Faulty (σ : Type) where
  store : σ
  plans : List FaultPlan

namespace Faulty

/-- Answers calls like `handler`, except for those that are arranged to fail: they do not reach
the store.  `operation` names a call, and `failed` is the answer that reports a failure. -/
def handler {I : Interface} {σ : Type} (operation : I.Call → String)
    (failed : (request : I.Call) → StoreError → I.Answer request) (handler : Handler I σ) :
    Handler I (Faulty σ) :=
  fun request state =>
    let (fails, plans) := FaultPlan.nextAmong (operation request) state.plans
    if fails then
      (failed request (.injected (operation request)), { state with plans })
    else
      let (answer, store) := handler request state.store
      (answer, { store, plans })

end Faulty

end NodeSteward
