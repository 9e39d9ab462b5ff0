import ServiceHost.Effect
import ServiceHost.Settings.Basic

/-!
# Context effects — what a module may do while it is set up

Setting up is the one phase in which a module has the context of its host: it may register
services, look things up, and ask the host to load its own parts. All of it goes through these
requests, so what a module did to the registry is what it asked for here.
-/

set_option autoImplicit false

namespace ServiceHost

/-- What code with a context can see of it. -/
structure ContextView where
  registry : Registry := {}
  settings : Settings := {}
  monitor : Monitor := .log
  typeTable : Ticket TypeTable := ⟨0⟩
  connectorId : String := ""

instance : Inhabited ContextView := ⟨{}⟩

inductive ContextOp where
  | world (op : WorldOp)
  /-- Registers a service, unless the capability is pinned. -/
  | register (capability : String) (service : Service)
  /-- Registers a service that later registrations cannot replace. -/
  | pin (capability : String) (service : Service)
  /-- Puts a service straight into the registry. -/
  | insert (capability : String) (service : Service)
  /-- Empties the registry. -/
  | clear
  | view
  /-- Sets the settings that win over every other source. -/
  | setOverrides (settings : Settings)
  | loadSettings
  | loadVault
  | loadMonitor
  /-- Discovers the modules of the host. -/
  | discover

/-- What a request to a context is answered with. -/
def ContextOp.Result : ContextOp → Type
  | .world op => op.Result
  | .register .. | .pin .. | .clear | .setOverrides _ => Unit
  | .insert .. => Option Service
  | .view => ContextView
  | .loadSettings | .loadVault => Except BootError Unit
  | .loadMonitor => Except DiscoveryError Monitor
  | .discover => Except DiscoveryError (List String)

/-- A program that acts on a context. -/
abbrev ContextEffect (α : Type) := Program ContextOp ContextOp.Result α

/-- An effect on the world as one on a context. -/
def Effect.inContext {α : Type} : Effect α → ContextEffect α
  | .done value => .done value
  | .ask op next => .ask (.world op) fun answer => inContext (next answer)

instance : MonadLift Effect ContextEffect := ⟨Effect.inContext⟩

namespace ContextEffect

def register (capability : String) (service : Service) : ContextEffect Unit :=
  Program.request (ContextOp.register capability service)

def pin (capability : String) (service : Service) : ContextEffect Unit :=
  Program.request (ContextOp.pin capability service)

def insert (capability : String) (service : Service) : ContextEffect (Option Service) :=
  Program.request (ContextOp.insert capability service)

def clear : ContextEffect Unit :=
  Program.request ContextOp.clear

def view : ContextEffect ContextView :=
  Program.request ContextOp.view

def setOverrides (settings : Settings) : ContextEffect Unit :=
  Program.request (ContextOp.setOverrides settings)

def loadSettings : ContextEffect (Except BootError Unit) :=
  Program.request ContextOp.loadSettings

def loadVault : ContextEffect (Except BootError Unit) :=
  Program.request ContextOp.loadVault

def loadMonitor : ContextEffect (Except DiscoveryError Monitor) :=
  Program.request ContextOp.loadMonitor

def discover : ContextEffect (Except DiscoveryError (List String)) :=
  Program.request ContextOp.discover

/-- The service under a capability, which must be there as a service of that type. -/
def get (capability : String) (type : ServiceType) :
    ContextEffect (Except LookupError Service) := do
  return (← view).registry.get capability type

/-- The service under a capability, if it is there as a service of that type; another type is
worth a warning. -/
def find? (capability : String) (type : ServiceType) : ContextEffect (Option Service) := do
  let view ← view
  match view.registry.get capability type with
  | .ok service => return some service
  | .error (.missing _) => return none
  | .error mismatch =>
    Effect.warning view.monitor mismatch.message
    return none

end ContextEffect

end ServiceHost
