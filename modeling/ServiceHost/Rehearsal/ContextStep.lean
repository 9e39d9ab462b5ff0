import ServiceHost.Context.Effect
import ServiceHost.Rehearsal.Question
import ServiceHost.Rehearsal.ServiceScript

/-!
# Context steps — what a rehearsal asks of a context

Each step is a program of requests to a context and ends with an answer. A rehearsed module takes
the same steps while it is set up, so nothing is possible here that a module could not do.
-/

set_option autoImplicit false

namespace ServiceHost

inductive ContextStep where
  | register (capability : String) (service : ServiceScript)
  | pin (capability : String) (service : ServiceScript)
  /-- Puts a service straight into the registry. -/
  | insert (capability : String) (service : ServiceScript)
  | get (capability : String) (type : ServiceType)
  | find (capability : String) (type : ServiceType)
  | resolve (capability : String) (required : Bool)
  | has (capability : String)
  | registry
  | clear
  | setOverrides (entries : List (String × String))
  | loadSettings
  | loadVault
  | loadMonitor
  | discover
  | connectorId
  | setting (key default : String)
  | settings (question : SettingsQuestion)
  | typeTable
  | vault (request : VaultRequest)
  | registerProvider (provider : ProviderScript)
  | refreshHealth
  | report (report : Report)

namespace ContextStep

def showFound : Except LookupError Service → Effect Answer
  | .ok service => do return .shown (← service.showing)
  | .error error => return .refused (.lookup error)

/-- Does something with the health service, if it is found. -/
def withHealth (action : Ticket HealthService → Effect Unit) : ContextEffect Answer := do
  match ← ContextEffect.find? Capability.healthCheck .health with
  | some (.health ticket) => action ticket
  | _ => pure ()
  return .nothing

def act : ContextStep → ContextEffect Answer
  | .register capability script => do
    ContextEffect.register capability (← script.make)
    return .nothing
  | .pin capability script => do
    ContextEffect.pin capability (← script.make)
    return .nothing
  | .insert capability script => do
    let replaced ← ContextEffect.insert capability (← script.make)
    return .shown (View.text? (replaced.map Service.debugText))
  | .get capability type => do
    showFound (← ContextEffect.get capability type)
  | .find capability type => do
    match ← ContextEffect.find? capability type with
    | some service => return .shown (← service.showing)
    | none => return .nothing
  | .resolve capability required => do
    let registry := (← ContextEffect.view).registry
    return .ofExcept .lookup (fun found => View.text? (found.map (·.type.name)))
      (registry.resolve capability required)
  | .has capability => do
    return .shown (.bool ((← ContextEffect.view).registry.has capability))
  | .registry => do return .shown (View.registry (← ContextEffect.view).registry)
  | .clear => do
    ContextEffect.clear
    return .nothing
  | .setOverrides entries => do
    ContextEffect.setOverrides (.ofList entries)
    return .nothing
  | .loadSettings => do
    return .ofExcept .boot (fun () => .string "ok") (← ContextEffect.loadSettings)
  | .loadVault => do
    return .ofExcept .boot (fun () => .string "ok") (← ContextEffect.loadVault)
  | .loadMonitor => do
    match ← ContextEffect.loadMonitor with
    | .ok monitor => return .shown (← (Service.monitor monitor).showing)
    | .error error => return .refused (.discovery error)
  | .discover => do
    return .ofExcept .discovery
      (fun names => .array (names.map fun name => View.stage name .discovered))
      (← ContextEffect.discover)
  | .connectorId => do return .shown (.string (← ContextEffect.view).connectorId)
  | .setting key default => do
    return .shown (.string ((← ContextEffect.view).settings.textOr key default))
  | .settings question => do return question.answer (← ContextEffect.view).settings
  | .typeTable => do
    let ticket := (← ContextEffect.view).typeTable
    return .shown (View.typeTable (← Effect.typeTable ticket))
  | .vault request => do
    match ← ContextEffect.find? Capability.vault .vault with
    | some (.vault ticket) => request.act ticket
    | _ => return .nothing
  | .registerProvider script => do
    let (kind, plan) := script.plan
    withHealth fun ticket => Effect.addProvider ticket kind plan
  | .refreshHealth => withHealth Effect.refreshHealth
  | .report message => do
    Effect.report (← ContextEffect.view).monitor message
    return .nothing

end ContextStep

end ServiceHost
