import ServiceHost.Health.Status

/-!
# Health services — providers, refreshes and cached statuses

A provider answers a result each time it is asked, and may register further providers on the
service that asks while it does. A refresh works on a **snapshot**: it asks every provider that was
registered when it began, liveness before readiness before startup and each kind in order of
registration, and only then are the cached statuses replaced. What was registered meanwhile stands
on the lists at once, and is asked from the next refresh on.

What a provider is and what it does when it is asked are left open here (`Answering`): a service
has names `π` of providers on its lists, and what the providers know between their calls is a
state `σ`, which they share with each other and with everything else.
-/

set_option autoImplicit false

namespace ServiceHost

/-- How often each kind of status is refreshed, in milliseconds. -/
structure HealthPeriods where
  liveness : Nat := 60000
  readiness : Nat := 60000
  startup : Nat := 60000
deriving DecidableEq, Repr, Inhabited

/-- The worker refreshes every kind at the shortest of the periods. -/
def HealthPeriods.shortest (periods : HealthPeriods) : Nat :=
  min (min periods.liveness periods.readiness) periods.startup

/-- One value for each kind of check. -/
structure PerKind (α : Type) where
  liveness : α
  readiness : α
  startup : α

namespace PerKind

variable {α : Type}

def get (values : PerKind α) : CheckKind → α
  | .liveness => values.liveness
  | .readiness => values.readiness
  | .startup => values.startup

def modify (values : PerKind α) (kind : CheckKind) (change : α → α) : PerKind α :=
  match kind with
  | .liveness => { values with liveness := change values.liveness }
  | .readiness => { values with readiness := change values.readiness }
  | .startup => { values with startup := change values.startup }

end PerKind

/-- A service of checks whose providers are `π`s. -/
structure CheckService (π : Type) where
  periods : HealthPeriods := {}
  providers : PerKind (List π) := ⟨[], [], []⟩
  cached : PerKind HealthStatus := ⟨{}, {}, {}⟩
  /-- The worker that refreshes periodically is running. -/
  running : Bool := false

/-- What a call of a provider comes to: a result, and the providers that it registered, in order. -/
structure Reply (π : Type) where
  result : CheckResult
  registers : List (CheckKind × π) := []

/-- What each provider does when it is asked. It can look at the cached statuses, and at a state
that it shares. -/
abbrev Answering (π σ : Type) :=
  π → PerKind HealthStatus → StateM σ (Reply π)

namespace CheckService

/-- One call of a refresh: whom it asked, and what that came to. -/
structure Call (π : Type) where
  kind : CheckKind
  provider : π
  reply : Reply π

variable {π σ : Type}

instance : Inhabited (CheckService π) := ⟨{}⟩

/-- Registers a provider behind those of its kind. -/
def register (service : CheckService π) (kind : CheckKind) (provider : π) : CheckService π :=
  { service with providers := service.providers.modify kind (· ++ [provider]) }

def registerAll (service : CheckService π) (providers : List (CheckKind × π)) : CheckService π :=
  providers.foldl (fun service (kind, provider) => service.register kind provider) service

/-- All registered providers in the order in which a refresh asks them. -/
def snapshot (service : CheckService π) : List (CheckKind × π) :=
  service.providers.liveness.map ((CheckKind.liveness, ·)) ++
    service.providers.readiness.map ((CheckKind.readiness, ·)) ++
    service.providers.startup.map ((CheckKind.startup, ·))

/-- Asks a provider. What it registers stands on the lists of the service from then on. -/
def ask (answering : Answering π σ) (asked : CheckKind × π) :
    StateM (CheckService π × σ) (Call π) := fun (service, shared) =>
  let (kind, provider) := asked
  let (reply, shared) := answering provider service.cached shared
  ({ kind, provider, reply }, service.registerAll reply.registers, shared)

/-- The results of the calls to providers of one kind, in order. -/
def resultsOf (kind : CheckKind) (calls : List (Call π)) : HealthStatus where
  results := (calls.filter (·.kind = kind)).map (·.reply.result)

/-- Asks every registered provider once, then replaces the cached statuses, and answers the calls. -/
def refresh (answering : Answering π σ) : StateM (CheckService π × σ) (List (Call π)) := do
  let (service, _) ← get
  let calls ← service.snapshot.mapM (ask answering)
  modify fun (service, shared) =>
    ({ service with
        cached := ⟨resultsOf .liveness calls, resultsOf .readiness calls, resultsOf .startup calls⟩ },
      shared)
  return calls

def status (service : CheckService π) (kind : CheckKind) : HealthStatus :=
  service.cached.get kind

end CheckService

end ServiceHost
