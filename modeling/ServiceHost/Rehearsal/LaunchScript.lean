import ServiceHost.Launch.Steps
import ServiceHost.Rehearsal.ModuleScript

/-!
# Scripted launches — a launch whose steps are noted, refused or left out

A scripted launch notes each of its steps in the journal before it takes it. A step may be told
to fail or to do nothing, some bring a part of the script instead of the part that is built in,
and the shutdown hook may be run or disarmed as soon as it is handed out.
-/

set_option autoImplicit false

namespace ServiceHost

/-- A step of a launch that can be scripted. -/
inductive LaunchStep where
  | typeTable
  | locator
  | monitor
  | context
  | loadSettings
  | loadVault
  | modules
  | install
  | boot
  | name
  | onError
deriving DecidableEq, Repr

namespace LaunchStep

/-- The name that a step is noted under. -/
def noteName : LaunchStep → String
  | .typeTable => "create_type_manager"
  | .locator => "create_service_locator"
  | .monitor => "create_monitor"
  | .context => "create_context"
  | .loadSettings => "initialize_context"
  | .loadVault => "initialize_vault"
  | .modules => "create_extensions"
  | .install => "install_shutdown_hook"
  | .boot => "boot_extensions"
  | .name => "runtime_name"
  | .onError => "on_error"

end LaunchStep

/-- What is done to a shutdown hook as soon as it is handed out. -/
inductive EarlyRequest where
  | run
  | disarm

structure LaunchScript where
  locator : Locator := builtinLocator
  /-- The monitor, if it is not to be discovered. -/
  monitor? : Option Monitor := none
  overrides : List (String × String) := []
  name : String := "EDC"
  /-- The steps that fail; only those that can fail do. -/
  fails : LaunchStep → Bool := fun _ => false
  /-- The steps that do nothing; only those that can be left out are. -/
  skips : LaunchStep → Bool := fun _ => false
  early? : Option EarlyRequest := none

namespace LaunchScript

def note (step : LaunchStep) : Effect Unit :=
  Effect.note "hook" [.shown (.string step.noteName)]

/-- The error of a step that was told to fail. -/
def refusal (step : LaunchStep) : BootError :=
  .vault (.backend (step.noteName ++ " refused"))

/-- Takes a step that may be told to fail. -/
def guarded {α : Type} (script : LaunchScript) (step : LaunchStep) (action : BootM α) :
    BootM α := do
  (Host.effect (note step) : HostM Unit)
  if script.fails step then throw (refusal step) else action

/-- Takes a step that may be told to fail, or to end at once with `skipped`. -/
def optional {α : Type} (script : LaunchScript) (step : LaunchStep) (skipped : α)
    (action : BootM α) : BootM α :=
  script.guarded step (if script.skips step then return skipped else action)

def findMonitor (script : LaunchScript) (locator : Locator) :
    Effect (Except BootError Monitor × Locator) := do
  note .monitor
  if script.fails .monitor then return (.error (refusal .monitor), locator)
  else match script.monitor? with
    | some monitor => return (.ok monitor, locator)
    | none =>
      let (found, locator) := locator.loadMonitor
      return (found.mapError .discovery, locator)

/-- Does to a hook what the script asks for when the hook is handed out. -/
def handOut (script : LaunchScript) (hook : ShutdownHook) : HostM ShutdownHook := do
  Host.effect (note .install)
  Host.debug "hook handed over"
  match script.early? with
  | none => return hook
  | some .disarm => return hook.disarm
  | some .run =>
    let (hook, failures) ← hook.run
    Host.effect (Effect.note "early" [.failures failures])
    return hook

def steps (script : LaunchScript) : BootSteps where
  typeTable := do
    note .typeTable
    Effect.newTypeTable {}
  locator := do
    note .locator
    return script.locator
  monitor := script.findMonitor
  context typeTable monitor locator := do
    note .context
    let context := Context.new typeTable monitor locator
    return { context with overrides := .ofList script.overrides }
  loadSettings := script.optional .loadSettings () Host.loadSettings
  loadVault := script.optional .loadVault () Host.loadVault
  modules := script.optional .modules [] ({} : BootSteps).modules
  install := script.handOut
  boot limits modules := script.guarded .boot do
    (Host.effect (Effect.note "limits" [.shown (View.limits limits)]) : HostM Unit)
    if script.skips .boot then return modules
    else ServiceHost.boot Injection.fromRegistry limits modules
  name := do
    Host.effect (note .name)
    return script.name
  onError error monitor := do
    note .onError
    Effect.report monitor {
      level := .severe, message := "boot refused", cause := some error.toFailure }

end LaunchScript

/-- The injector that fills no slot, and notes each module that it leaves alone. -/
def Injection.leavingAlone : Injector := fun hosted => do
  Host.effect (noteOf "no-inject" hosted.name [])
  return (hosted, .ok ())

end ServiceHost
