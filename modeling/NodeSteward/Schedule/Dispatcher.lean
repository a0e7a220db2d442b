import NodeSteward.Schedule.History
import NodeSteward.Schedule.Interval
import NodeSteward.Workflow.Logging
import NodeSteward.Workflow.Trigger

/-!
# Dispatching time triggers

At every tick the dispatcher finds the active time triggers, and fires those that are due: it
writes a log entry and hands the trigger to whoever executes workflows.  A trigger without a
readable interval is passed over, and a log entry that cannot be written does not stop the
firing.  When nobody takes dispatches any more the tick ends at once.

Whether a dispatch is taken is answered at once: a tick never waits for somebody who still listens.
-/

namespace NodeSteward

/-- What ties together the log entries of one firing.  References are numbered, and no number
is used twice. -/
structure TriggerReference where
  number : Nat
  deriving DecidableEq, Repr

namespace TriggerReference

/-- The digits of references, which leave out letters that are easily confused. -/
def digits : List Char :=
  ['0', '1', '2', '3', '4', '5', '6', '7', '8', '9', 'A', 'B', 'C', 'D', 'E', 'F', 'G', 'H', 'J',
    'K', 'M', 'N', 'P', 'Q', 'R', 'S', 'T', 'V', 'W', 'X', 'Y', 'Z']

/-- The last `width` digits of a number to the base 32. -/
def chars : Nat → Nat → List Char
  | 0, _ => []
  | width + 1, number => chars width (number / 32) ++ [digits.getD (number % 32) '0']

def text (reference : TriggerReference) : String :=
  "trig_" ++ String.ofList (chars 26 reference.number)

end TriggerReference

/-- A trigger that fired. -/
structure Dispatch where
  reference : TriggerReference
  /-- The trigger with its direct neighbours. -/
  trigger : NodeView
  firedAt : Timestamp
  deriving DecidableEq, Repr

/-- Why a tick failed. -/
inductive SchedulerError where
  /-- The active triggers could not be found. -/
  | discovery (error : WorkflowError)
  /-- Nobody takes dispatches any more. -/
  | dispatchClosed
  deriving DecidableEq, Repr

namespace SchedulerError

def message : SchedulerError → String
  | .discovery error => "trigger discovery failed: " ++ error.message
  | .dispatchClosed => "trigger dispatch receiver closed"

end SchedulerError

/-- What the dispatcher asks of others: calls to the workflow store, and that a dispatch is
taken. -/
inductive DispatcherCall where
  | store (request : WorkflowCall)
  | deliver (dispatch : Dispatch)

/-- The calls of the dispatcher.  The answer to a dispatch is whether somebody took it. -/
abbrev dispatcherCalls : Interface where
  Call := DispatcherCall
  Answer
    | .store request => Except StoreError request.Value
    | .deliver _ => Bool

namespace DispatcherCall

/-- An operation on workflows as a part of what the dispatcher does. -/
def ofWorkflow {α : Type} : Program workflowCalls α → Program dispatcherCalls α
  | .done result => .done result
  | .call request next => .call (.store request) (fun answer => ofWorkflow (next answer))

/-- Answers the calls to the store by its handler, and collects what is dispatched as long as
somebody takes it, the oldest dispatch first. -/
def handler {σ : Type} (store : Handler workflowCalls σ) :
    Handler dispatcherCalls (σ × Bool × List Dispatch)
  | .store request, (state, taken) =>
    let (answer, state) := store request state
    (answer, (state, taken))
  | .deliver dispatch, (state, listening, delivered) =>
    if listening then (true, (state, true, delivered ++ [dispatch]))
    else (false, (state, false, delivered))

end DispatcherCall

/-- The dispatcher between two ticks. -/
structure Dispatcher where
  /-- The Lightning node for which log entries are written. -/
  lightningNode : Int
  history : FiringHistory
  /-- The number of the next reference. -/
  nextReference : Nat
  deriving DecidableEq, Repr

namespace Dispatcher

/-- A dispatcher that has fired nothing. -/
def start (lightningNode : Int) (nextReference : Nat) : Dispatcher :=
  ⟨lightningNode, .empty, nextReference⟩

/-- The log entry about a firing. -/
def entryOf (dispatcher : Dispatcher) (reference : TriggerReference) (schedule : Schedule)
    (now : Timestamp) : LogEntry :=
  { LogEntry.ofRun dispatcher.lightningNode schedule.node reference.text now with
    inputData := (Json.object [("timeInSeconds", .ofNat schedule.seconds)]).toText }

/-- Fires the due ones of some triggers.  Yields how many fired, or that nobody takes dispatches
any more; a trigger whose dispatch was not taken does not count as fired. -/
def fireAll (now : Timestamp) (instant : Nat) :
    Dispatcher → List NodeView → Program dispatcherCalls (Except SchedulerError Nat × Dispatcher)
  | dispatcher, [] => .done (.ok 0, dispatcher)
  | dispatcher, trigger :: triggers =>
    match Schedule.ofNode trigger.node with
    | .error _ => fireAll now instant dispatcher triggers
    | .ok schedule =>
      if dispatcher.history.isDue schedule.node schedule.interval instant then do
        let reference : TriggerReference := ⟨dispatcher.nextReference⟩
        let numbered := { dispatcher with nextReference := dispatcher.nextReference + 1 }
        let _ ← DispatcherCall.ofWorkflow
          (LogEntry.append now (numbered.entryOf reference schedule now)).run
        let accepted ← Program.request (I := dispatcherCalls)
          (.deliver { reference, trigger, firedAt := now })
        if accepted then
          let fired := { numbered with history := numbered.history.record schedule.node instant }
          let (others, final) ← fireAll now instant fired triggers
          return (others.map (· + 1), final)
        else return (.error .dispatchClosed, numbered)
      else fireAll now instant dispatcher triggers

/-- One tick at an instant of the timers' clock: finds the active time triggers, forgets the
others, and fires those that are due. -/
def tick (now : Timestamp) (instant : Nat) (dispatcher : Dispatcher) :
    Program dispatcherCalls (Except SchedulerError Nat × Dispatcher) := do
  match ← DispatcherCall.ofWorkflow (NodeView.activeTriggers .timeTrigger).run with
  | .error error => return (.error (.discovery error), dispatcher)
  | .ok triggers =>
    let known := { dispatcher with
      history := dispatcher.history.retain (triggers.map NodeView.id) }
    fireAll now instant known triggers

/-- The instants from `start` on at which something with the given period happens before `stop`:
at the start and then after every period. -/
def tickInstants (start stop period : Nat) : List Nat :=
  (List.range ((stop - start + period - 1) / period)).map (fun count => start + count * period)

/-- Ticks at the given instants, until nobody takes dispatches any more.  A tick that fails to
find the triggers does not end the run.  Yields whether the run ended early. -/
def runAt (now : Timestamp) : Dispatcher → List Nat → Program dispatcherCalls (Bool × Dispatcher)
  | dispatcher, [] => .done (false, dispatcher)
  | dispatcher, instant :: instants => do
    match ← tick now instant dispatcher with
    | (.error .dispatchClosed, stopped) => return (true, stopped)
    | (_, next) => runAt now next instants

end Dispatcher

end NodeSteward
