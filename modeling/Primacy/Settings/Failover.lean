/-
  Primacy.Settings.Failover

  How a failover driver brings nodes down.
-/
import Primacy.Settings.Setting

namespace Primacy.Settings

structure Failover where
  /-- Without it no node is ever brought down. -/
  cycleNodes : Bool := false
  leadsToStop : Nat := 1
  storesToStop : Nat := 1
  /-- The least time between two cycles of one target, in seconds. -/
  minCycleInterval : Nat := 20
  /-- The pause before a second cycle if no time of the first is known, in seconds. -/
  firstCycleGrace : Nat := 20
  /-- Write a node's configuration line before it is started again. -/
  regenerateConfig : Bool := true
  confDir : String := "./conf"
  leadTarget : String := "lead"
  storeTarget : String := "server"
  /-- How often the primary is asked for while a new one is awaited, in milliseconds. -/
  primaryPollInterval : Nat := 500
  deriving DecidableEq, Inhabited

namespace Failover

def settings : List (Setting Failover) :=
  [.of "cycle_vms" .flag (·.cycleNodes) fun a s => { s with cycleNodes := a },
   .of "num_leads_to_stop" (.natural Text.nat64Max) (·.leadsToStop)
     fun a s => { s with leadsToStop := a },
   .of "num_vms_to_stop" (.natural Text.nat64Max) (·.storesToStop)
     fun a s => { s with storesToStop := a },
   .of "min_cycle_interval_secs" (.natural Text.nat64Max) (·.minCycleInterval)
     fun a s => { s with minCycleInterval := a },
   .of "first_cycle_grace_secs" (.natural Text.nat64Max) (·.firstCycleGrace)
     fun a s => { s with firstCycleGrace := a },
   .of "regenerate_config" .flag (·.regenerateConfig) fun a s => { s with regenerateConfig := a },
   .of "conf_dir" .text (·.confDir) fun a s => { s with confDir := a },
   .of "lead_target" .text (·.leadTarget) fun a s => { s with leadTarget := a },
   .of "store_target" .text (·.storeTarget) fun a s => { s with storeTarget := a },
   .of "oracle_poll_interval_ms" (.natural Text.nat64Max) (·.primaryPollInterval)
     fun a s => { s with primaryPollInterval := a }]

def validate (s : Failover) : Except Error Unit :=
  if Text.isBlankText s.leadTarget || Text.isBlankText s.storeTarget then
    .error (.invalidSettings "failover.lead_target and failover.store_target cannot be empty")
  else if s.primaryPollInterval = 0 then
    .error (.invalidSettings "failover.oracle_poll_interval_ms must be greater than 0")
  else if s.regenerateConfig && s.confDir.isEmpty then
    .error (.invalidSettings "failover.conf_dir is required when regenerate_config is enabled")
  else .ok ()

/-- The settings of a driver, read from JSON. -/
def ofJson (text : String) : Except Json.Fault Failover :=
  Json.read (Json.record (settings.map Setting.field) {}) text

/-- The least time between two cycles, in milliseconds. -/
def minCycleMillis (s : Failover) : Nat := s.minCycleInterval * 1000

/-- The pause before a second cycle, in milliseconds. -/
def graceMillis (s : Failover) : Nat := s.firstCycleGrace * 1000

end Failover

end Primacy.Settings
