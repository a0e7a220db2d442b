import NodeSteward.Config.Settings

/-!
# Settings in messages

Settings are shown with what follows from them: the ticks that are kept, which are never shorter
than a second, and whether the node works on the main network of bitcoin.
-/

namespace NodeSteward

namespace SchedulerSettings

def toJson (settings : SchedulerSettings) : Json :=
  .object
    [("tick_seconds", .ofNat settings.tickSeconds.toNat),
      ("lightning_node_id", .ofInt settings.lightningNode), ("tick", .ofNat settings.tick)]

end SchedulerSettings

namespace MaintenanceSettings

def toJson (settings : MaintenanceSettings) : Json :=
  .object
    [("tick_seconds", .ofNat settings.tickSeconds.toNat),
      ("verification_delay_ms", .ofNat settings.verificationDelayMillis.toNat),
      ("verification_url", .text settings.verificationUrl), ("tick", .ofNat settings.tick),
      ("verification_delay", .ofNat settings.verificationDelayMillis.toNat)]

end MaintenanceSettings

namespace ServerSettings

def toJson (settings : ServerSettings) : Json :=
  .object
    [("database_url", .text settings.databaseUrl),
      ("database_max_connections", .ofNat settings.databaseMaxConnections.toNat),
      ("scheduler", settings.scheduler.toJson), ("maintenance", settings.maintenance.toJson),
      ("node", settings.node.toJson),
      ("is_bitcoin_mainnet", .boolean settings.node.isBitcoinMainnet)]

end ServerSettings

end NodeSteward
