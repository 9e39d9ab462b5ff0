import ServiceHost.Health.Service
import ServiceHost.Shelf

/-!
# Providers — what a host registers on its health service

A host registers one provider of its own, which answers with the startup status. Every other one
follows a plan: what it does depends on how often it has been asked, and **each registration of a
plan counts its calls for itself**, so the counts stand on a shelf of the host.
-/

set_option autoImplicit false

namespace ServiceHost

/-- What a provider answers to call number `n`, and the plans that it registers on that call. -/
inductive ProviderPlan where
  | mk (answer : (call : Nat) → CheckResult × List (CheckKind × ProviderPlan))

/-- A provider on a list. -/
inductive Provider where
  /-- Answers with the startup status of the host. -/
  | startup
  /-- Follows a plan; the number of its calls stands under the ticket. -/
  | planned (plan : ProviderPlan) (calls : Ticket Nat)

abbrev HealthService := CheckService Provider

/-- What the providers of a host share. -/
structure ProviderState where
  startup : CheckResult
  /-- How often each of them has been asked. -/
  calls : Shelf Nat

namespace ProviderPlan

/-- A new provider that follows the plan, and the shelf with its count. -/
def provider (plan : ProviderPlan) (calls : Shelf Nat) : Provider × Shelf Nat :=
  let (ticket, calls) := calls.put 0
  (.planned plan ticket, calls)

/-- New providers that follow the plans, in order. -/
def providers : List (CheckKind × ProviderPlan) → Shelf Nat → List (CheckKind × Provider) × Shelf Nat
  | [], calls => ([], calls)
  | (kind, plan) :: rest, calls =>
    let (provider, calls) := plan.provider calls
    let (others, calls) := providers rest calls
    ((kind, provider) :: others, calls)

end ProviderPlan

/-- What the providers of a host do when they are asked. -/
def Provider.answer : Answering Provider ProviderState
  | .startup, _ => fun state => ({ result := state.startup }, state)
  | .planned (.mk answer) ticket, _ => fun state =>
    let call := state.calls.get ticket
    let (result, plans) := answer call
    let (registers, calls) := ProviderPlan.providers plans (state.calls.set ticket (call + 1))
    ({ result, registers }, { state with calls })

end ServiceHost
