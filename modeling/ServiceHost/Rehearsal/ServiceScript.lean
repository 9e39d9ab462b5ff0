import ServiceHost.Effect
import ServiceHost.Rehearsal.View

/-!
# Scripted services — services made on demand, and shown

A rehearsal registers services that it describes: plain values, a vault with secrets, a health
service with providers whose answers are listed beforehand, a type table with names. What it
finds it shows, and a monitor is shown by reporting to it.
-/

set_option autoImplicit false

namespace ServiceHost

/-- A provider that answers from a list: each call with the next result, and every call past the
end with the last one. Without any it always succeeds. -/
inductive ProviderScript where
  /-- On every call a provider may be registered as well. -/
  | mk (kind : CheckKind) (results : List CheckResult) (adds : Option ProviderScript)

namespace ProviderScript

instance : Inhabited ProviderScript := ⟨.mk .liveness [] none⟩

/-- The result of a call. -/
def resultAt (results : List CheckResult) (call : Nat) : CheckResult :=
  (results[call]?).getD (results.getLast?.getD .success)

/-- The kind and the plan of the provider. -/
def plan : ProviderScript → CheckKind × ProviderPlan
  | .mk kind results none => (kind, .mk fun call => (resultAt results call, []))
  | .mk kind results (some adds) =>
    let added := adds.plan
    (kind, .mk fun call => (resultAt results call, [added]))

end ProviderScript

/-- Makes a health service with providers registered in order. -/
def Effect.newHealthOf (scripts : List ProviderScript) : Effect (Ticket HealthService) := do
  let ticket ← newHealth {}
  for script in scripts do
    let (kind, plan) := script.plan
    addProvider ticket kind plan
  return ticket

/-- The type table in which names are bound to one type; a name is bound once. -/
def TypeTable.ofNames (names : List String) (type : String) : TypeTable where
  bindings := Std.TreeMap.ofList (names.map fun name => (name, type))

inductive ServiceScript where
  /-- The service as it is. -/
  | plain (service : Service)
  | vault (secrets : List (String × String))
  | health (providers : List ProviderScript)
  /-- A type table with these names bound to bytes. -/
  | typeTable (names : List String)

namespace ServiceScript

/-- The type that the service is registered as. -/
def type : ServiceScript → ServiceType
  | .plain service => service.type
  | .vault _ => .vault
  | .health _ => .health
  | .typeTable _ => .typeTable

def make : ServiceScript → Effect Service
  | .plain service => pure service
  | .vault secrets => do return .vault (← Effect.newVault (.ofList secrets))
  | .health providers => do return .health (← Effect.newHealthOf providers)
  | .typeTable names => do
    return .typeTable (← Effect.newTypeTable (.ofNames names ServiceType.byte.name))

end ServiceScript

/-- The key whose secret is shown of a vault, and the message that a monitor is shown by. -/
def Service.probe : String := "probe"

def Service.showing : Service → Effect Json
  | .byte value => pure (.integer value.toNat)
  | .word value => pure (.integer value.toNat)
  | .long value => pure (.integer value.toInt)
  | .flag value => pure (.bool value)
  | .text value => pure (.string value)
  | .monitor receiver => do
    Effect.info receiver probe
    return .string "<monitor>"
  | .vault ticket => do
    let vault ← Effect.vault ticket
    return .object [(probe, View.text? (vault.resolve? probe))]
  | .health ticket => do return View.health (← Effect.health ticket)
  | .typeTable ticket => do return View.typeTable (← Effect.typeTable ticket)

end ServiceHost
