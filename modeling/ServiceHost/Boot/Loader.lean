import ServiceHost.Boot.Limits
import ServiceHost.Boot.Order

/-!
# Booting — modules are injected and set up one by one, and then started

The modules are put in order first, and nothing happens to any of them if that fails. Then each in
turn has its slots filled and is set up, and when all are set up each in turn is started. The
first call that fails ends the boot: what it answers counts before how long it took.
-/

set_option autoImplicit false

namespace ServiceHost

namespace Boot

/-- Takes modules out of the slots at the given positions, one after the other. A slot that is
empty by then, or that is not there, is passed over. -/
def takeSlots : List (Option Hosted) → List Nat → List Hosted
  | _, [] => []
  | slots, position :: rest =>
    match slots[position]? with
    | some (some hosted) => hosted :: takeSlots (slots.set position none) rest
    | _ => takeSlots slots rest

/-- The modules at the given positions, in that order. -/
def arrange (modules : List Hosted) (order : List Nat) : List Hosted :=
  takeSlots (modules.map some) order

/-- The error of a call that ended well but too late, if it did. -/
def checkTime (limits : Limits) (phase : Phase) (module : String) (elapsed : Nat) : BootM Unit :=
  match limits.timeoutError? phase module elapsed with
  | some error => throw error
  | none => return ()

def setUp (limits : Limits) (hosted : Hosted) : BootM Hosted := do
  let (result, elapsed) ← (timed limits .setUp hosted.name
    (Host.contextEffect (hosted.module.setUp hosted.memory)) : HostM _)
  match result with
  | .error failure => throw (.failed .setUp hosted.name failure)
  | .ok memory =>
    checkTime limits .setUp hosted.name elapsed
    let hosted ← ({ hosted with memory }.advance .initialized : HostM Hosted)
    Host.info ("Initialized " ++ hosted.name)
    return hosted

def inject (injector : Injector) (hosted : Hosted) : BootM Hosted := do
  Host.write (.stepped .inject hosted.name)
  match ← (injector hosted : HostM _) with
  | (_, .error error) => throw (.injection error)
  | (hosted, .ok ()) => return hosted

/-- Fills the slots of a module and sets it up. -/
def bringUp (injector : Injector) (limits : Limits) (hosted : Hosted) : BootM Hosted := do
  setUp limits (← inject injector hosted)

/-- Starts a module. It counts as started even when the start took too long. -/
def start (limits : Limits) (hosted : Hosted) : BootM Hosted := do
  let (result, elapsed) ← (timed limits .start hosted.name
    (Host.effect (hosted.module.start hosted.memory)) : HostM _)
  match result with
  | .error failure => throw (.failed .start hosted.name failure)
  | .ok memory =>
    let hosted ← ({ hosted with memory }.advance .started : HostM Hosted)
    checkTime limits .start hosted.name elapsed
    Host.info ("Started " ++ hosted.name)
    return hosted

/-- The positions of modules in the order in which they boot. -/
def plan (modules : List Hosted) (registry : Registry) : Except BootError (List Nat) :=
  (Graph.build modules registry).bind Graph.order

end Boot

/-- Boots modules: answers with all of them in the order in which they were set up. -/
def boot (injector : Injector) (limits : Limits) (modules : List Hosted) : BootM (List Hosted) := do
  match Boot.plan modules (← get).context.registry with
  | .error error => throw error
  | .ok order =>
    let ready ← (Boot.arrange modules order).mapM (Boot.bringUp injector limits)
    ready.mapM (Boot.start limits)

end ServiceHost
