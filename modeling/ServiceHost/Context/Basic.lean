import ServiceHost.Discovery.Locator
import ServiceHost.Settings.Environment

/-!
# Contexts — the registry of a host and the parts it was given

A context holds the services of a host, its settings, its monitor and where it discovers its
extensions. Services are registered in two ways: plainly, where the last registration of a
capability stays and replacing one is worth a warning; and **pinned**, where no plain
registration of the capability has an effect any more.
-/

set_option autoImplicit false

namespace ServiceHost

structure Context extends ContextView where
  /-- The capabilities that plain registrations cannot replace. -/
  pinned : List String := []
  /-- The settings that win over every other source. -/
  overrides : Settings := {}
  locator : Locator := .manifest []

instance : Inhabited Context := ⟨{}⟩

/-- A host: its context, and the world it is in. -/
structure Host where
  world : World := {}
  context : Context := {}

instance : Inhabited Host := ⟨{}⟩

/-- A new context, which publishes its monitor and its type table. -/
def Context.new (typeTable : Ticket TypeTable) (monitor : Monitor) (locator : Locator) :
    Context where
  registry := (({} : Registry).insert Capability.monitor (.monitor monitor)).insert
    Capability.typeTable (.typeTable typeTable)
  monitor := monitor
  typeTable := typeTable
  locator := locator

/-- The context with a service that plain registrations cannot replace. -/
def Context.pin (context : Context) (capability : String) (service : Service) : Context :=
  { context with
    registry := context.registry.insert capability service
    pinned := capability :: context.pinned }

/-- What a host does, from one state of it to the next. -/
abbrev HostM := StateM Host

/-- What a host does and may fail at. The host is left as it was when it failed. -/
abbrev BootM := ExceptT BootError HostM

namespace Host

/-- Runs an effect in the world of the host. -/
def effect {α : Type} (effect : Effect α) : HostM α := fun host =>
  let (value, world) := effect.run host.world
  (value, { host with world })

/-- Reports to the monitor of the context. -/
def report (report : Report) : HostM Unit := do
  let host ← get
  set { host with world := host.world.report host.context.monitor report }

def debug (message : String) : HostM Unit :=
  report { level := .debug, message }

def info (message : String) : HostM Unit :=
  report { level := .info, message }

def warning (message : String) : HostM Unit :=
  report { level := .warning, message }

def write (event : Event) : HostM Unit :=
  modify fun host => { host with world := host.world.write event }

def changeContext (change : Context → Context) : HostM Unit :=
  modify fun host => { host with context := change host.context }

/-! ## Registrations -/

/-- Puts a service straight into the registry, and answers the one that it replaced. -/
def insert (capability : String) (service : Service) : HostM (Option Service) := do
  let registry := (← get).context.registry
  changeContext fun context => { context with registry := registry.insert capability service }
  return registry.find? capability

/-- Registers a service, unless its capability is pinned. -/
def register (capability : String) (service : Service) : HostM Unit := do
  if (← get).context.pinned.contains capability then
    warning ("capability " ++ capability ++ " is pinned, registration of " ++
      service.type.name ++ " skipped")
  else
    match ← insert capability service with
    | none => return ()
    | some previous =>
      warning ("capability " ++ capability ++ " re-registered: " ++ previous.type.name ++
        " replaced by " ++ service.type.name)

/-- Registers a service that plain registrations cannot replace. -/
def pin (capability : String) (service : Service) : HostM Unit :=
  changeContext (·.pin capability service)

def clear : HostM Unit :=
  changeContext fun context => { context with registry := {} }

/-! ## Discovery -/

def locate {α : Type} (question : Locator → Except DiscoveryError α × Locator) :
    HostM (Except DiscoveryError α) := fun host =>
  let (answer, locator) := question host.context.locator
  (answer, { host with context := { host.context with locator } })

/-- The modules that the locator finds; there must be one. -/
def discover : HostM (Except DiscoveryError (List Hosted)) := do
  let found ← locate (Locator.loadAll .service Extension.toModule? true)
  return found.map (·.map Hosted.fresh)

end Host

/-- The monitor that a locator finds: the log if it finds none. -/
def Locator.loadMonitor (locator : Locator) : Except DiscoveryError Monitor × Locator :=
  let (found, locator) := locator.loadAll .monitor Extension.toMonitor? false
  (found.map fun extensions => .ofFound (extensions.map MonitorExtension.monitor), locator)

namespace Host

/-! ## Loading the parts of the host -/

/-- The setting that names a host. -/
def nameSetting : String := "edc.connector.name"

/-- The settings of the extension that brings them, if there is one. -/
def extensionSettings : BootM (Option Settings) := do
  match ← locate (Locator.loadOne .settings Extension.toSettings? false) with
  | .error error => throw (.discovery error)
  | .ok none => return none
  | .ok (some extension) =>
    match ← (effect (extension.prepare (← get).context.monitor) : HostM _) with
    | .error error => throw (.settings error)
    | .ok settings =>
      info ("Initialized " ++ extension.name)
      return some settings

/-- The settings of the environment as a layer. Where reading them brings the process down, the
journal says so, and nothing more is loaded. -/
def environmentLayer : BootM Json := do
  match Settings.environmentLayer (← get).world.surroundings.environment with
  | .ok layer => return layer
  | .error crash =>
    write (.crashed crash)
    throw (.settings (.source crash.message))

/-- Loads the settings: those of the extension, under those of the environment, under the
overrides. The host takes its name from them. -/
def loadSettings : BootM Unit := do
  let extension ← extensionSettings
  let environment ← environmentLayer
  let host ← get
  let layers : Except SettingsError (List Json) := do
    let base ← extension.toList.mapM Settings.layer
    let overrides ← host.context.overrides.layer
    return base ++ [environment, overrides]
  match layers with
  | .error error => throw (.settings error)
  | .ok layers =>
    let settings := Settings.ofLayers layers
    changeContext fun context => { context with
      settings
      connectorId := settings.textOr nameSetting ("edc-" ++ host.world.surroundings.freshId) }

/-- The vault of the extension that brings one, or else one that keeps its secrets in memory. -/
def findVault : BootM (Ticket Vault) := do
  match ← locate (Locator.loadOne .vault Extension.toVault? false) with
  | .error error => throw (.discovery error)
  | .ok none =>
    debug "No vault extension found, using the in-memory vault"
    (effect (Effect.newVault {}) : HostM _)
  | .ok (some extension) =>
    match ← (effect (extension.prepare (← get).context.monitor) : HostM _) with
    | .error error => throw (.vault error)
    | .ok () =>
      info ("Initialized " ++ extension.name)
      (effect extension.vault : HostM _)

def loadVault : BootM Unit := do
  register Capability.vault (.vault (← findVault))

/-! ## Answering a module -/

/-- The host's answer to a request of code that it gave its context to. -/
def perform : (op : ContextOp) → HostM op.Result
  | .world op => fun host =>
    let (answer, world) := host.world.perform op
    (answer, { host with world })
  | .register capability service => register capability service
  | .pin capability service => pin capability service
  | .insert capability service => insert capability service
  | .clear => clear
  | .view => fun host => (host.context.toContextView, host)
  | .setOverrides settings => changeContext fun context => { context with overrides := settings }
  | .loadSettings => loadSettings.run
  | .loadVault => loadVault.run
  | .loadMonitor => locate Locator.loadMonitor
  | .discover => do
    let found ← discover
    return found.map (·.map Hosted.name)

/-- Runs code with the context of the host. -/
def contextEffect {α : Type} (effect : ContextEffect α) : HostM α := fun host =>
  Program.run perform effect host

end Host

end ServiceHost
