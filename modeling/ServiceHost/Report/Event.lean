import ServiceHost.Boot.Error
import ServiceHost.Crash
import ServiceHost.Json.Basic

/-!
# Events — what a host has done, in order

The journal of a host holds what left it and what it did to its modules: deliveries of reports,
the steps of module lives, and the notes of rehearsed parts. It only ever grows at its end.
-/

set_option autoImplicit false

namespace ServiceHost

/-- Why a request to some part of a host was refused. -/
inductive Refusal where
  | settings (error : SettingsError)
  | vault (error : VaultError)
  | capability (error : CapabilityError)
  | discovery (error : DiscoveryError)
  | lookup (error : LookupError)
  | injection (error : InjectionError)
  | typeTable (error : TypeTableError)
  | boot (error : BootError)
deriving DecidableEq, Repr

inductive Answer where
  | shown (value : Json)
  | refused (reason : Refusal)
  /-- The modules that failed to stop, and why. -/
  | failures (list : List (String × Failure))

/-- One step in the life of a module. -/
inductive Step where
  | inject
  | call (phase : Phase)
deriving DecidableEq, Repr

inductive Event where
  | delivered (delivery : Delivery)
  /-- A step of a module begins. -/
  | stepped (step : Step) (module : String)
  /-- The registry was emptied after a shutdown. -/
  | cleared
  /-- A note under a label. -/
  | noted (label : String) (details : List Answer)
  /-- The process came down: what stands behind this in the journal never took place. -/
  | crashed (crash : Crash)

def Event.isCrash : Event → Bool
  | .crashed _ => true
  | _ => false

end ServiceHost
