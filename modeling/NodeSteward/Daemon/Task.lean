/-!
# The tasks of the daemon

The daemon runs tasks side by side until all are cancelled together.  One group of tasks runs
workflows by the clock, the other keeps the records of channels up to date.
-/

namespace NodeSteward

/-- A task that runs until it is cancelled. -/
inductive DaemonTask where
  /-- Fires time triggers. -/
  | dispatchTriggers
  /-- Takes the dispatches. -/
  | receiveDispatches
  /-- Takes the facts that recording updates brings to light. -/
  | receiveFacts
  /-- Takes over the listed channels, then records channel updates. -/
  | followChannels
  /-- Stores transactions. -/
  | followTransactions
  /-- Has messages signed by the node. -/
  | signMessages
  /-- Reconciles channels with the chain. -/
  | reconcileChannels
  deriving DecidableEq, Repr

namespace DaemonTask

/-- The tasks that run workflows by the clock. -/
def scheduling : List DaemonTask :=
  [.dispatchTriggers, .receiveDispatches]

/-- The tasks that keep the records of channels up to date. -/
def channelWork : List DaemonTask :=
  [.receiveFacts, .followChannels, .followTransactions, .signMessages, .reconcileChannels]

end DaemonTask

end NodeSteward
