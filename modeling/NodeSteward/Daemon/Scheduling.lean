import NodeSteward.Config.Settings
import NodeSteward.Schedule.Dispatcher

/-!
# Running workflows by the clock

The daemon fires time triggers from its start on, at once and then at every tick of its settings.
It takes the dispatches itself, so that none is refused while it runs.
-/

namespace NodeSteward

namespace SchedulerSettings

/-- The length of a tick on the clock of the timers. -/
def tickPeriod (settings : SchedulerSettings) : Nat :=
  Timer.ofSeconds settings.tick

/-- Fires time triggers from `start` until `stop`, on a history in which nothing has fired. -/
def dispatch (settings : SchedulerSettings) (clock : Timestamp) (nextReference start stop : Nat) :
    Program dispatcherCalls (Bool × Dispatcher) :=
  (Dispatcher.start settings.lightningNode nextReference).runAt clock
    (Dispatcher.tickInstants start stop settings.tickPeriod)

end SchedulerSettings

end NodeSteward
