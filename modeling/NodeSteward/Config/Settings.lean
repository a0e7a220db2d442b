import NodeSteward.Channel.NodeSettings
import NodeSteward.Channel.Verification
import NodeSteward.Time.Timer

/-!
# Settings of the daemon

The settings name the database and tune the scheduler and the reconciliation of channels.  All
but the database have values for the case that nothing is said.
-/

namespace NodeSteward

/-- Settings of the scheduler of time triggers. -/
structure SchedulerSettings where
  /-- The seconds between two ticks. -/
  tickSeconds : UInt64
  /-- The Lightning node for which log entries are written. -/
  lightningNode : Int
  deriving DecidableEq, Repr

/-- Settings of the reconciliation of channels. -/
structure MaintenanceSettings where
  /-- The seconds between two sweeps. -/
  tickSeconds : UInt64
  /-- The milliseconds that every call to the verification service is followed by. -/
  verificationDelayMillis : UInt64
  verificationUrl : String
  deriving DecidableEq, Repr

/-- Settings of the daemon. -/
structure ServerSettings where
  databaseUrl : String
  databaseMaxConnections : UInt32
  scheduler : SchedulerSettings
  maintenance : MaintenanceSettings
  node : NodeSettings
  deriving DecidableEq, Repr

namespace SchedulerSettings

def standard : SchedulerSettings := ⟨10, 0⟩

/-- The seconds between two ticks, at least one. -/
def tick (settings : SchedulerSettings) : Nat :=
  max 1 settings.tickSeconds.toNat

def decode? (source : Source) : Option SchedulerSettings := do
  let slots ← source.slots? ["tick_seconds", "lightning_node_id"]
  return {
    tickSeconds := ← slots.withDefault "tick_seconds" Source.uint64? standard.tickSeconds
    lightningNode := ←
      slots.withDefault "lightning_node_id" Source.int64? standard.lightningNode }

end SchedulerSettings

namespace MaintenanceSettings

def standard : MaintenanceSettings := ⟨3600, 500, VerificationClient.standardUrl⟩

/-- The seconds between two sweeps, at least one. -/
def tick (settings : MaintenanceSettings) : Nat :=
  max 1 settings.tickSeconds.toNat

def decode? (source : Source) : Option MaintenanceSettings := do
  let slots ← source.slots? ["tick_seconds", "verification_delay_ms", "verification_url"]
  return {
    tickSeconds := ← slots.withDefault "tick_seconds" Source.uint64? standard.tickSeconds
    verificationDelayMillis := ←
      slots.withDefault "verification_delay_ms" Source.uint64? standard.verificationDelayMillis
    verificationUrl := ←
      slots.withDefault "verification_url" Source.text? standard.verificationUrl }

end MaintenanceSettings

namespace ServerSettings

/-- The number of database connections where nothing is said. -/
def standardMaxConnections : UInt32 := 5

def decode? (source : Source) : Option ServerSettings := do
  let slots ← source.slots?
    ["database_url", "database_max_connections", "scheduler", "maintenance", "node"]
  return {
    databaseUrl := ← slots.required "database_url" Source.text?
    databaseMaxConnections := ←
      slots.withDefault "database_max_connections" Source.uint32? standardMaxConnections
    scheduler := ← slots.withDefault "scheduler" SchedulerSettings.decode? .standard
    maintenance := ← slots.withDefault "maintenance" MaintenanceSettings.decode? .standard
    node := ← slots.withDefault "node" NodeSettings.decode? .standard }

end ServerSettings

/-- Why the daemon did not start. -/
inductive ServerError where
  /-- The settings are incomplete or wrong. -/
  | config (details : String)
  /-- The database cannot be reached. -/
  | database (details : String)
  /-- The schema could not be brought up to date. -/
  | migration (details : String)
  deriving DecidableEq, Repr

namespace ServerError

def message : ServerError → String
  | .config details => "invalid configuration: " ++ details
  | .database details => "database connection failed: " ++ details
  | .migration details => "database migration failed: " ++ details

end ServerError

end NodeSteward
