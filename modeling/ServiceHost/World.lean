import ServiceHost.Report.Event
import ServiceHost.Files

/-!
# Worlds — everything outside one context that a host acts on

A world holds the journal, the monitor of the process, a clock, the shelves of shared services,
the startup status, and the surroundings in which the host runs. Every effect is a function on
worlds.
-/

set_option autoImplicit false

namespace ServiceHost

/-- What a host finds around it. -/
structure Surroundings where
  /-- Environment variables in the order in which they were set. -/
  environment : List (String × String) := []
  files : FileTree := {}
  /-- A text that no other host uses, for a host that is given no name. -/
  freshId : String := ""

instance : Inhabited Surroundings := ⟨{}⟩

def Surroundings.valueOf? (surroundings : Surroundings) (name : String) : Option String :=
  (surroundings.environment.find? (·.1 = name)).map (·.2)

/-- An operating system has room for a variable of that name and value. -/
def Surroundings.admits (name value : String) : Bool :=
  name ≠ "" && !name.toList.contains '=' && !(name ++ value).toList.contains '\x00'

/-- The surroundings with a variable set; one that is set again keeps its place. -/
def Surroundings.setVariable (surroundings : Surroundings) (name value : String) : Surroundings :=
  if surroundings.environment.any (·.1 = name) then
    { surroundings with environment := surroundings.environment.map fun (other, old) =>
        if other = name then (name, value) else (other, old) }
  else { surroundings with environment := surroundings.environment ++ [(name, value)] }

/-- The services that several owners share. -/
structure Shelves where
  vaults : Shelf Vault := {}
  healths : Shelf HealthService := {}
  /-- How often each provider of a health service has been asked. -/
  providerCalls : Shelf Nat := {}
  typeTables : Shelf TypeTable := {}

instance : Inhabited Shelves := ⟨{}⟩

namespace Shelves

/-- Registers a new provider that follows a plan. -/
def addProvider (shelves : Shelves) (ticket : Ticket HealthService) (kind : CheckKind)
    (plan : ProviderPlan) : Shelves :=
  let (provider, providerCalls) := plan.provider shelves.providerCalls
  { shelves with
    healths := shelves.healths.set ticket ((shelves.healths.get ticket).register kind provider)
    providerCalls }

/-- Refreshes the health service of a ticket. -/
def refreshHealth (shelves : Shelves) (ticket : Ticket HealthService) (startup : CheckResult) :
    Shelves :=
  let (_, service, state) := CheckService.refresh Provider.answer
    (shelves.healths.get ticket, { startup, calls := shelves.providerCalls })
  { shelves with
    healths := shelves.healths.set ticket service
    providerCalls := state.calls }

end Shelves

/-- The startup status of a host that has not come up. -/
def startupPending : CheckResult := .failed "Startup not complete"

/-- Everything that effects act on. -/
structure World where
  journal : List Event := []
  /-- The monitor of the process; the log until one is installed. -/
  monitor : Monitor := .log
  /-- Nanoseconds that have passed. -/
  clock : Nat := 0
  /-- Nanoseconds that any call of a module takes, beside what the module lets pass. -/
  overhead : Nat := 0
  shelves : Shelves := {}
  startup : CheckResult := startupPending
  surroundings : Surroundings := {}

instance : Inhabited World := ⟨{}⟩

namespace World

def write (world : World) (event : Event) : World :=
  { world with journal := world.journal ++ [event] }

def report (world : World) (monitor : Monitor) (report : Report) : World :=
  { world with journal := world.journal ++ (monitor.deliveries report).map .delivered }

/-- Acts on the files around the host. -/
def onFiles {α : Type} (action : StateM FileTree α) : StateM World α := fun world =>
  let (answer, files) := action.run world.surroundings.files
  (answer, { world with surroundings := { world.surroundings with files } })

def elapse (world : World) (nanos : Nat) : World :=
  { world with clock := world.clock + nanos }

end World

end ServiceHost
