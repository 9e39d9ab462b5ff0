import ServiceHost.Context.Basic

/-!
# Limits — how long a call of a module may take

A call that takes longer than the warning threshold is reported, and one that takes longer than
the timeout counts as failed. Calls are measured and never interrupted, and **a call takes what the
module lets pass in it** and what any call takes in the world that it is made in; so where that is
more than nothing, every call is too slow for a limit of zero.
-/

set_option autoImplicit false

namespace ServiceHost

/-- A duration in milliseconds as nanoseconds. The factor stands in front, so that unfolding stops
at an unknown duration. -/
def nanosOfMillis (millis : Nat) : Nat :=
  1000000 * millis

/-- Limits on the time of a call, in nanoseconds. -/
structure Limits where
  warn : Nat := nanosOfMillis 5000
  timeout : Nat := nanosOfMillis 60000
deriving DecidableEq, Repr, Inhabited

namespace Limits

/-- The setting of the warning threshold, in milliseconds. -/
def warnSetting : String := "edc.core.system.lifecycle.warn-threshold-ms"

/-- The setting of the timeout, in milliseconds. -/
def timeoutSetting : String := "edc.core.system.lifecycle.timeout-ms"

def ofSettings (settings : Settings) : Except SettingsError Limits := do
  let defaults : Limits := {}
  let warn ← settings.integerOr .unsignedLong warnSetting (millisOfNanos defaults.warn)
  let timeout ← settings.integerOr .unsignedLong timeoutSetting (millisOfNanos defaults.timeout)
  return { warn := nanosOfMillis warn.toNat, timeout := nanosOfMillis timeout.toNat }

/-- The error of a call that ended well but too late. -/
def timeoutError? (limits : Limits) (phase : Phase) (module : String) (elapsed : Nat) :
    Option BootError :=
  if limits.timeout < elapsed then some (.timeout phase module elapsed limits.timeout) else none

end Limits

/-- Makes a call of a module: it is a step of the journal, takes some time, and is reported when
it took longer than the warning threshold. Answers with the nanoseconds that it took. -/
def timed {α : Type} (limits : Limits) (phase : Phase) (module : String) (call : HostM α) :
    HostM (α × Nat) := do
  Host.write (.stepped (.call phase) module)
  let before := (← get).world.clock
  let result ← call
  Host.effect (Effect.elapse (← get).world.overhead)
  let elapsed := (← get).world.clock - before
  if limits.warn < elapsed then
    Host.warning (phase.name ++ " of " ++ module ++ " took " ++
      toString (millisOfNanos elapsed) ++ "ms, threshold is " ++
      toString (millisOfNanos limits.warn) ++ "ms")
  return (result, elapsed)

end ServiceHost
