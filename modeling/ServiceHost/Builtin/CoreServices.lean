import ServiceHost.Module.Basic

/-!
# Core services — the module that provides the health checks

Every host needs health checks to come up. This module provides them, with a worker that
refreshes the statuses at the shortest of three periods, which the settings may change.
-/

set_option autoImplicit false

namespace ServiceHost

namespace CoreServices

/-- The setting of the liveness period, in seconds. -/
def livenessSetting : String := "edc.core.system.health.check.liveness-period"

/-- The setting of the readiness period, in seconds. -/
def readinessSetting : String := "edc.core.system.health.check.readiness-period"

/-- The setting of the startup period, in seconds. -/
def startupSetting : String := "edc.core.system.health.check.startup-period"

/-- The period that a setting asks for, in milliseconds. A period of zero is refused. -/
def period (settings : Settings) (key : String) : Except SettingsError Nat := do
  let seconds ← settings.integerOr .unsignedLong key 60
  if seconds = 0 then throw (.unparseable key "0" "positive integer")
  return seconds.toNat * 1000

/-- The periods that the settings ask for. -/
def periods (settings : Settings) : Except SettingsError HealthPeriods := do
  return {
    liveness := ← period settings livenessSetting
    readiness := ← period settings readinessSetting
    startup := ← period settings startupSetting }

/-- The slot of the monitor that the worker reports to. -/
def monitorField : String := "monitor"

/-- The name under which the module keeps its health service. -/
def healthField : String := "health_check"

def kind : String := "connector_core::core_services::CoreServicesExtension"

/-- Makes the health service and registers it. -/
def setUp (memory : Memory) : ContextEffect (Except Failure Memory) := do
  match periods (← ContextEffect.view).settings with
  | .error error => return .error (.ofMessage error.message)
  | .ok periods =>
    let ticket ← Effect.newHealth { periods }
    ContextEffect.register Capability.healthCheck (.health ticket)
    return .ok ((healthField, .health ticket) :: memory)

/-- The health service that the module keeps. -/
def health? (memory : Memory) : Option (Ticket HealthService) :=
  match memory.find? healthField with
  | some (.health ticket) => some ticket
  | _ => none

/-- Starts the worker. It reports to the monitor in its slot, or to that of the process. -/
def start (memory : Memory) : Effect (Except Failure Memory) := do
  match health? memory with
  | none => return .ok memory
  | some ticket =>
    let monitor ← match memory.find? monitorField with
      | some (.monitor monitor) => pure monitor
      | _ => Effect.processMonitor
    Effect.startHealth ticket monitor
    return .ok memory

def stop (memory : Memory) : Effect (Except Failure Memory) := do
  match health? memory with
  | none => return .ok memory
  | some ticket =>
    Effect.stopHealth ticket
    return .ok memory

def module : Module where
  name := "Core Services"
  kind := kind
  provides := [Capability.healthCheck]
  points := [{
    field := monitorField
    capability := Capability.monitor
    service := .monitor
    target := kind }]
  setUp := setUp
  start := start
  stop := stop

end CoreServices

end ServiceHost
