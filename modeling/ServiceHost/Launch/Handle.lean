import ServiceHost.Launch.Steps

/-!
# Launches — a host comes up, or is refused

A launch prepares the host, hands out its shutdown hook, boots the modules, and only then arms
the hook and declares the startup a success. **A launch that fails has stopped nothing**: its hook
is done before anybody can make it stop a module, and the startup status stays what it was.
-/

set_option autoImplicit false

namespace ServiceHost

/-- A host that came up. -/
structure Handle where
  name : String
  context : Context
  hook : ShutdownHook

/-- What a launch led to. -/
structure Attempt where
  outcome : Except BootError Handle
  /-- The monitor, if the launch came as far as finding it. -/
  monitor : Option Monitor
  /-- The shutdown hook, if the launch came as far as handing it out. -/
  hook : Option ShutdownHook

namespace Launch

/-- Everything before the shutdown hook is handed out: the modules, and the limits on them. -/
def prepare (steps : BootSteps) : BootM (List Hosted × Limits) := do
  steps.loadSettings
  steps.loadVault
  let modules ← steps.modules
  match Limits.ofSettings (← get).context.settings with
  | .error error => throw (.settings error)
  | .ok limits => return (modules, limits)

/-- The health service of a host, without which it does not come up. -/
def healthService : BootM (Ticket HealthService) := do
  match (← get).context.registry.get Capability.healthCheck .health with
  | .ok (.health ticket) => return ticket
  | .ok _ => throw (.healthCheck (.missing Capability.healthCheck))
  | .error error => throw (.healthCheck error)

/-- Boots the modules, which must bring the health service. -/
def bootModules (steps : BootSteps) (limits : Limits) (modules : List Hosted) :
    BootM (List Hosted × Ticket HealthService) := do
  let booted ← steps.boot limits modules
  return (booted, ← healthService)

/-- The hook after the requests that have reached it by then. -/
def heed (steps : BootSteps) (moment : Moment) (hook : ShutdownHook) : HostM ShutdownHook := do
  if ← Host.effect (steps.stopRequested moment) then return (← hook.run).1 else return hook

/-- Declares the startup a success, and lets the health checks know. -/
def declareStarted (steps : BootSteps) (health : Ticket HealthService) (hook : ShutdownHook) :
    HostM ShutdownHook := do
  Host.effect (Effect.changeHealth health (·.register .startup .startup))
  let hook ← heed steps .watched hook
  modify fun host => { host with world := { host.world with startup := .success } }
  let hook ← heed steps .declared hook
  Host.effect (Effect.refreshHealth health)
  heed steps .refreshed hook

/-- Hands the modules over to the hook and declares the startup a success: the name of the host, and
its hook. -/
def comeUp (steps : BootSteps) (booted : List Hosted) (health : Ticket HealthService)
    (hook : ShutdownHook) : HostM (String × ShutdownHook) := do
  let hook ← heed steps .handedOver (← hook.arm booted)
  let hook ← declareStarted steps health hook
  let name ← steps.name
  Host.info (name ++ " ready")
  return (name, hook)

/-- Everything after the context is made: the name of the host, and its shutdown hook if it came
as far as handing it out. -/
def bringUp (steps : BootSteps) : HostM (Except BootError String × Option ShutdownHook) := do
  match ← (prepare steps).run with
  | .error error => return (.error error, none)
  | .ok (modules, limits) =>
    let hook ← steps.install { limits }
    let result ← (bootModules steps limits modules).run
    let hook ← heed steps .booting hook
    match result with
    | .error error => return (.error error, some hook.disarm)
    | .ok (booted, health) =>
      let (name, hook) ← comeUp steps booted health hook
      return (.ok name, some hook)

def effect {α : Type} (effect : Effect α) : StateM World α :=
  effect.run

/-- What a launch that has found its monitor answers on the host that it leaves. An error is made
known first. -/
def answer (steps : BootSteps) (monitor : Monitor) (host : Host) :
    Except BootError String × Option ShutdownHook → StateM World Attempt
  | (.ok name, some hook) =>
    return { outcome := .ok { name, context := host.context, hook }, monitor, hook }
  | (.ok name, none) =>
    let hook : ShutdownHook := { limits := {}, state := .done }
    return { outcome := .ok { name, context := host.context, hook }, monitor, hook := none }
  | (.error error, hook) => do
    effect (steps.onError error monitor)
    return { outcome := .error error, monitor, hook }

end Launch

def launch (steps : BootSteps) : StateM World Attempt := do
  let typeTable ← Launch.effect steps.typeTable
  let locator ← Launch.effect steps.locator
  let (found, locator) ← Launch.effect (steps.monitor locator)
  match found with
  | .error error =>
    Launch.effect (steps.onError error .log)
    return { outcome := .error error, monitor := none, hook := none }
  | .ok monitor =>
    modify ({ · with monitor })
    let context ← Launch.effect (steps.context typeTable monitor locator)
    let (result, host) := (Launch.bringUp steps).run { world := ← get, context }
    set host.world
    Launch.answer steps monitor host result

namespace Handle

/-- Acts on the host of a handle. -/
def act {α : Type} (handle : Handle) (action : HostM α) (world : World) :
    (α × Handle) × World :=
  let (value, host) := action.run { world, context := handle.context }
  ((value, { handle with context := host.context }), host.world)

def shutdown (handle : Handle) (world : World) : (ShutdownFailures × Handle) × World :=
  let (((hook, failures), handle), world) := handle.act handle.hook.run world
  ((failures, { handle with hook }), world)

end Handle

end ServiceHost
