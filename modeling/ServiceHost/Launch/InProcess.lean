import ServiceHost.Launch.Handle

/-!
# In-process hosts — a host inside a program that supplies its parts

A program that embeds a host may bring services, extensions and settings of its own. Its services
are **pinned**, so no module of the host replaces them; its extensions lie over those of the
locator; its settings win over every other source. The host comes up at most once, and a launch
that is refused may be tried again, though not with the extensions: the first launch takes them.
-/

set_option autoImplicit false

namespace ServiceHost

/-- A host inside a program, and what the program brings to it. -/
structure InProcess where
  /-- The locator with the extensions of the program, until the first launch takes it. -/
  locator? : Option Locator
  /-- Services to pin at the next launch. -/
  services : List (String × Service) := []
  settings : Std.TreeMap String String := ∅
  handle? : Option Handle := none

namespace InProcess

/-- A host whose extensions lie over those of a locator. -/
def new (delegate : Locator) : InProcess where
  locator? := some (.layered [] delegate)

/-- The host comes up with a service that no module replaces. -/
def pin (host : InProcess) (capability : String) (service : Service) : InProcess :=
  { host with services := host.services ++ [(capability, service)] }

/-- The host comes up with a setting that wins over every other source. -/
def set (host : InProcess) (key value : String) : InProcess :=
  { host with settings := host.settings.insert key value }

/-- The host discovers an extension of the program. After its first launch it does not any more,
which is worth a record in the process log. -/
def extend (host : InProcess) (extension : Extension) : StateM World InProcess :=
  match host.locator? with
  | some locator =>
    return { host with locator? := some (locator.register { origin := "test", extension }) }
  | none => do
    modify (·.write (.delivered (.logged .warn ("system extension for " ++ extension.point.name ++
      " registered after boot is ignored"))))
    return host

/-- Pins services in a context, in order. -/
def pinAll (services : List (String × Service)) (context : Context) : Context :=
  services.foldl (fun context (capability, service) => context.pin capability service) context

/-- The steps of a launch with what the program brings. -/
def steps (host : InProcess) : BootSteps where
  locator := pure (host.locator?.getD builtinLocator)
  context typeTable monitor locator := pure <| pinAll host.services
    { Context.new typeTable monitor locator with overrides := { entries := host.settings } }
  loadVault := do
    if (← get).context.registry.has Capability.vault then return () else Host.loadVault
  onError error monitor := Effect.report monitor {
    level := .severe, message := "Error booting test runtime", cause := some error.toFailure }

/-- Launches the host, unless it is up. -/
def launch (host : InProcess) : StateM World (Except BootError Unit × InProcess) :=
  match host.handle? with
  | some _ => return (.ok (), host)
  | none => do
    let attempt ← ServiceHost.launch host.steps
    let services := if attempt.monitor.isSome then [] else host.services
    let host := { host with locator? := none, services }
    match attempt.outcome with
    | .error error => return (.error error, host)
    | .ok handle => return (.ok (), { host with handle? := some handle })

/-- The settings of the host; it has none before it is up. -/
def current (host : InProcess) : Settings :=
  match host.handle? with
  | some handle => handle.context.settings
  | none => {}

/-- The service under a capability; before the host is up there is none. -/
def get (host : InProcess) (capability : String) (type : ServiceType) :
    Except LookupError Service :=
  match host.handle? with
  | some handle => handle.context.registry.get capability type
  | none => .error (.missing capability)

/-- Shuts the host down, if it is up. -/
def shutdown (host : InProcess) : StateM World (ShutdownFailures × InProcess) :=
  match host.handle? with
  | none => return ([], host)
  | some handle => do
    let (failures, handle) ← handle.shutdown
    return (failures, { host with handle? := some handle })

end InProcess

end ServiceHost
