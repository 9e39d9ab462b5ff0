import ServiceHost.Boot.Limits
import ServiceHost.Injection.Injector

/-!
# Shutting down — started modules are stopped in reverse, once

Modules are stopped in the reverse of their order, those that are started and no others, and
**every one of them gets its call** whatever the calls before it answered. What failed is
collected.

A shutdown hook is what a host hands to whoever may ask it to stop. A request that comes before
the modules are handed over is remembered, and they are stopped as soon as they are; a request
after the first one does nothing.
-/

set_option autoImplicit false

namespace ServiceHost

/-- The modules that failed to stop, and why. -/
abbrev ShutdownFailures := List (String × Failure)

namespace Shutdown

/-- The failure of a call that ended badly, or well but too late. -/
def failure? (limits : Limits) (module : String) (result : Except Failure Memory) (elapsed : Nat) :
    Option Failure :=
  match result with
  | .error failure => some failure
  | .ok _ => (limits.timeoutError? .shutdown module elapsed).map BootError.toFailure

/-- Stops a module that is started. -/
def stop (limits : Limits) (hosted : Hosted) : HostM (Hosted × ShutdownFailures) := do
  if hosted.stage ≠ .started then return (hosted, [])
  else
    let (result, elapsed) ← timed limits .shutdown hosted.name
      (Host.effect (hosted.module.stop hosted.memory))
    let failure? := failure? limits hosted.name result elapsed
    match failure? with
    | some cause =>
      Host.report { level := .severe, message := "Error shutting down " ++ hosted.name, cause }
    | none => pure ()
    let memory := match result with
      | .ok memory => memory
      | .error _ => hosted.memory
    let hosted ← { hosted with memory }.advance .stopped
    Host.info ("Shutdown " ++ hosted.name)
    return (hosted, failure?.toList.map fun failure => (hosted.name, failure))

/-- Stops modules, the last one first. -/
def stopAll (limits : Limits) : List Hosted → HostM (List Hosted × ShutdownFailures)
  | [] => return ([], [])
  | hosted :: rest => do
    let (rest, failures) ← stopAll limits rest
    let (hosted, failure) ← stop limits hosted
    return (hosted :: rest, failures ++ failure)

end Shutdown

/-- What a shutdown hook is waiting for. -/
inductive HookState where
  /-- The modules have not been handed over. -/
  | pending
  | armed (modules : List Hosted)
  /-- Shut down, or told never to. -/
  | done

/-- The hook that shuts a host down once. -/
structure ShutdownHook where
  limits : Limits
  state : HookState := .pending

namespace ShutdownHook

/-- Nothing is left for the hook to do. -/
def isDone (hook : ShutdownHook) : Bool :=
  match hook.state with
  | .done => true
  | _ => false

/-- Stops the modules, and empties the registry when all of them have stopped. -/
def shutDown (hook : ShutdownHook) (modules : List Hosted) : HostM ShutdownFailures := do
  let (_, failures) ← Shutdown.stopAll hook.limits modules
  Host.clear
  Host.write .cleared
  if failures.isEmpty then Host.info "Shutdown complete"
  else
    Host.warning ("Shutdown complete with " ++ toString failures.length ++
      " failed extension(s)")
  return failures

/-- Hands the modules over. If the hook was asked to run before, they are stopped at once. -/
def arm (hook : ShutdownHook) (modules : List Hosted) : HostM ShutdownHook :=
  match hook.state with
  | .pending => return { hook with state := .armed modules }
  | _ => do
    let _ ← hook.shutDown modules
    return hook

/-- The hook with nothing left to do, and nothing stopped. -/
def disarm (hook : ShutdownHook) : ShutdownHook :=
  { hook with state := .done }

/-- Shuts down if the modules are there, and remembers the request otherwise. -/
def run (hook : ShutdownHook) : HostM (ShutdownHook × ShutdownFailures) :=
  match hook.state with
  | .armed modules => do
    let failures ← hook.shutDown modules
    return (hook.disarm, failures)
  | _ => return (hook.disarm, [])

end ShutdownHook

end ServiceHost
