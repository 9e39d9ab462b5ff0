import ServiceHost.Boot.Loader
import ServiceHost.Boot.Shutdown
import ServiceHost.Builtin.Manifest

/-!
# Boot steps — the parts of a launch that a host may replace

A launch is a fixed sequence of steps, and whoever embeds a host may bring a step of its own. A
step that is not replaced does what a host on its own does.
-/

set_option autoImplicit false

namespace ServiceHost

/-- When a request to stop may reach a host that comes up: what it has done by then. -/
inductive Moment where
  /-- The hook is handed out, and the modules boot. -/
  | booting
  /-- The modules are handed over to the hook. -/
  | handedOver
  /-- The health checks ask for the startup status. -/
  | watched
  /-- The startup is declared a success. -/
  | declared
  /-- The health checks know. -/
  | refreshed
deriving DecidableEq, Repr

/-- The replaceable steps of a launch. -/
structure BootSteps where
  /-- Makes the type table. -/
  typeTable : Effect (Ticket TypeTable) := Effect.newTypeTable {}
  /-- Chooses where extensions are discovered. -/
  locator : Effect Locator := pure builtinLocator
  /-- Finds the monitor. -/
  monitor : Locator → Effect (Except BootError Monitor × Locator) := fun locator =>
    let (found, locator) := locator.loadMonitor
    pure (found.mapError .discovery, locator)
  /-- Makes the context. -/
  context : Ticket TypeTable → Monitor → Locator → Effect Context :=
    fun typeTable monitor locator => pure (Context.new typeTable monitor locator)
  loadSettings : BootM Unit := Host.loadSettings
  loadVault : BootM Unit := Host.loadVault
  /-- Finds the modules. -/
  modules : BootM (List Hosted) := do
    match ← (Host.discover : HostM _) with
    | .error error => throw (.discovery error)
    | .ok modules => return modules
  /-- Hands the shutdown hook to whoever may ask the host to stop. -/
  install : ShutdownHook → HostM ShutdownHook := pure
  boot : Limits → List Hosted → BootM (List Hosted) := boot Injection.fromRegistry
  /-- Learns whether the host was asked to stop by then. -/
  stopRequested : Moment → Effect Bool := fun _ => pure false
  /-- Names the host for its report that it is ready. -/
  name : HostM String := pure "EDC"
  /-- Learns of the error that ended a launch. -/
  onError : BootError → Monitor → Effect Unit := fun error monitor =>
    Effect.report monitor {
      level := .severe, message := "Error booting runtime", cause := some error.toFailure }

end ServiceHost
