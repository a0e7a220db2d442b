import NodeSteward.Workflow.Editing
import NodeSteward.Time.Timer

/-!
# Intervals of time triggers

A time trigger fires again and again after a whole positive number of seconds, which its
parameters give.
-/

namespace NodeSteward

/-- Why a trigger has no interval. -/
inductive ScheduleError where
  /-- The parameters give no whole number of seconds. -/
  | missingInterval (node : NodeId)
  /-- The number of seconds is not positive. -/
  | invalidInterval (node : NodeId) (seconds : Int)
  /-- The parameters cannot be read. -/
  | parameters (error : WorkflowError)
  deriving DecidableEq, Repr

namespace ScheduleError

def message : ScheduleError → String
  | .missingInterval node => "time trigger " ++ node.text ++ " has no interval"
  | .invalidInterval node seconds =>
    "time trigger " ++ node.text ++ " has invalid interval " ++ Decimal.intText seconds ++ "s"
  | .parameters error => error.message

end ScheduleError

/-- How often a trigger fires. -/
structure Schedule where
  node : NodeId
  seconds : Nat
  deriving DecidableEq, Repr

namespace Schedule

/-- The interval in nanoseconds. -/
def interval (schedule : Schedule) : Nat :=
  Timer.ofSeconds schedule.seconds

/-- The schedule that the parameters of a node give. -/
def ofNode (node : Node) : Except ScheduleError Schedule :=
  match node.readParameters with
  | .error error => .error (.parameters error)
  | .ok parameters =>
    match (parameters.get .timeInSeconds).intValue? with
    | none => .error (.missingInterval node.id)
    | some seconds =>
      if 0 < seconds then .ok ⟨node.id, seconds.toNat⟩
      else .error (.invalidInterval node.id seconds)

end Schedule

end NodeSteward
