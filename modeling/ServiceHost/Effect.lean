import ServiceHost.Program
import ServiceHost.World

/-!
# Effects — what code without a context may do

A module that starts or stops, an extension that prepares itself and a monitor that is tried may
report, let time pass, note something down, look around, and use the shared services. They have
no way to the registry of a host: that needs a context (`ServiceHost/Context/Effect`).
-/

set_option autoImplicit false

namespace ServiceHost

inductive WorldOp where
  /-- Sends a report to a monitor. -/
  | report (monitor : Monitor) (report : Report)
  /-- Lets time pass. -/
  | elapse (nanos : Nat)
  /-- Writes a note into the journal. -/
  | note (label : String) (details : List Answer)
  /-- The monitor of the process. -/
  | processMonitor
  | surroundings
  /-- The shared services as they are. -/
  | shelves
  /-- Replaces the shared services. -/
  | setShelves (shelves : Shelves)
  /-- The startup status of the host. -/
  | startup

/-- What a request to the world is answered with. -/
def WorldOp.Result : WorldOp → Type
  | .report .. | .elapse _ | .note .. | .setShelves _ => Unit
  | .processMonitor => Monitor
  | .surroundings => Surroundings
  | .shelves => Shelves
  | .startup => CheckResult

/-- The world's answer to a request, and the world after it. -/
def World.perform : (op : WorldOp) → World → op.Result × World
  | .report monitor report, world => ((), world.report monitor report)
  | .elapse nanos, world => ((), world.elapse nanos)
  | .note label details, world => ((), world.write (.noted label details))
  | .processMonitor, world => (world.monitor, world)
  | .surroundings, world => (world.surroundings, world)
  | .shelves, world => (world.shelves, world)
  | .setShelves shelves, world => ((), { world with shelves })
  | .startup, world => (world.startup, world)

/-- A program that acts on the world. -/
abbrev Effect (α : Type) := Program WorldOp WorldOp.Result α

namespace Effect

def run {α : Type} (effect : Effect α) (world : World) : α × World :=
  Program.run World.perform effect world

def report (monitor : Monitor) (report : Report) : Effect Unit :=
  Program.request (WorldOp.report monitor report)

def debug (monitor : Monitor) (message : String) : Effect Unit :=
  report monitor { level := .debug, message }

def info (monitor : Monitor) (message : String) : Effect Unit :=
  report monitor { level := .info, message }

def warning (monitor : Monitor) (message : String) : Effect Unit :=
  report monitor { level := .warning, message }

def elapse (nanos : Nat) : Effect Unit :=
  Program.request (WorldOp.elapse nanos)

def note (label : String) (details : List Answer) : Effect Unit :=
  Program.request (WorldOp.note label details)

def processMonitor : Effect Monitor :=
  Program.request WorldOp.processMonitor

def surroundings : Effect Surroundings :=
  Program.request WorldOp.surroundings

def shelves : Effect Shelves :=
  Program.request WorldOp.shelves

def setShelves (shelves : Shelves) : Effect Unit :=
  Program.request (WorldOp.setShelves shelves)

/-! ## Shared services -/

def newVault (vault : Vault) : Effect (Ticket Vault) := do
  let shelves ← shelves
  let (ticket, vaults) := shelves.vaults.put vault
  setShelves { shelves with vaults }
  return ticket

def newTypeTable (table : TypeTable) : Effect (Ticket TypeTable) := do
  let shelves ← shelves
  let (ticket, typeTables) := shelves.typeTables.put table
  setShelves { shelves with typeTables }
  return ticket

def newHealth (service : HealthService) : Effect (Ticket HealthService) := do
  let shelves ← shelves
  let (ticket, healths) := shelves.healths.put service
  setShelves { shelves with healths }
  return ticket

def vault (ticket : Ticket Vault) : Effect Vault := do
  return (← shelves).vaults.get ticket

def setVault (ticket : Ticket Vault) (vault : Vault) : Effect Unit := do
  let shelves ← shelves
  setShelves { shelves with vaults := shelves.vaults.set ticket vault }

def typeTable (ticket : Ticket TypeTable) : Effect TypeTable := do
  return (← shelves).typeTables.get ticket

def health (ticket : Ticket HealthService) : Effect HealthService := do
  return (← shelves).healths.get ticket

/-- Changes the health service of a ticket. -/
def changeHealth (ticket : Ticket HealthService) (change : HealthService → HealthService) :
    Effect Unit := do
  let shelves ← shelves
  setShelves { shelves with
    healths := shelves.healths.set ticket (change (shelves.healths.get ticket)) }

/-- Registers a new provider that follows a plan. -/
def addProvider (ticket : Ticket HealthService) (kind : CheckKind) (plan : ProviderPlan) :
    Effect Unit := do
  setShelves ((← shelves).addProvider ticket kind plan)

def refreshHealth (ticket : Ticket HealthService) : Effect Unit := do
  let startup ← Program.request WorldOp.startup
  setShelves ((← shelves).refreshHealth ticket startup)

/-- Starts the worker of a health service, which says so; a second start does nothing. -/
def startHealth (ticket : Ticket HealthService) (monitor : Monitor) : Effect Unit := do
  let service ← health ticket
  if service.running then return ()
  else
    debug monitor ("health check worker started, period=" ++
      toString service.periods.shortest ++ "ms")
    changeHealth ticket ({ · with running := true })

/-- Waits until the worker of a health service has asked the liveness providers. Without a worker
that never happens. -/
def awaitLiveness (ticket : Ticket HealthService) : Effect Bool := do
  let service ← health ticket
  if service.running && (service.status .liveness).results.isEmpty then refreshHealth ticket
  return !((← health ticket).status .liveness).results.isEmpty

/-- Stops the worker of a health service. -/
def stopHealth (ticket : Ticket HealthService) : Effect Unit :=
  changeHealth ticket ({ · with running := false })

end Effect

end ServiceHost
