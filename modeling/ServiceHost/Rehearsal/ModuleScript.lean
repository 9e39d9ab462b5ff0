import ServiceHost.Discovery.Extension
import ServiceHost.Rehearsal.ContextStep

/-!
# Scripted modules — modules whose every call is written down beforehand

A scripted module takes the actions of a call in order, up to the first that fails, and notes in
the journal when a call begins, when a slot is filled, and what its steps on the context were
answered.
-/

set_option autoImplicit false

namespace ServiceHost

/-- An action that every call can take. -/
inductive Action where
  | fail (cause : Failure)
  | sleep (millis : Nat)
  /-- Fails unless the capability has the right form. -/
  | mustBeValid (capability : String)

/-- An action of a module that starts or stops. -/
inductive LifeAction where
  | plain (action : Action)
  /-- Reports to the monitor of the process. -/
  | report (report : Report)

/-- An action of a module that is set up. -/
inductive SetUpAction where
  | plain (action : Action)
  /-- Fails unless the service is there. -/
  | mustGet (capability : String) (type : ServiceType)
  /-- Fails unless the setting is an integer. -/
  | mustBeInteger (key : String)
  | step (step : ContextStep)

namespace Action

def take : Action → Effect (Except Failure Unit)
  | .fail cause => return .error cause
  | .sleep millis => do
    Effect.elapse (nanosOfMillis millis)
    return .ok ()
  | .mustBeValid capability =>
    return (Capability.validate capability).mapError fun error => .ofMessage error.message

/-- Takes actions in order, up to the first that fails. -/
def takeAll {Op : Type} {Result : Op → Type} {α : Type}
    (take : α → Program Op Result (Except Failure Unit)) :
    List α → Program Op Result (Except Failure Unit)
  | [] => return .ok ()
  | action :: rest => do
    match ← take action with
    | .ok () => takeAll take rest
    | .error failure => return .error failure

end Action

/-- Takes an action of a module that starts or stops. -/
def LifeAction.take : LifeAction → Effect (Except Failure Unit)
  | .plain action => action.take
  | .report message => do
    Effect.report (← Effect.processMonitor) message
    return .ok ()

/-- Notes in the journal what a module did. -/
def noteOf (label module : String) (details : List Answer) : Effect Unit :=
  Effect.note label (.shown (.string module) :: details)

/-- Takes an action of a module that is set up. -/
def SetUpAction.take (module : String) : SetUpAction → ContextEffect (Except Failure Unit)
  | .plain action => action.take
  | .mustGet capability type => do
    match ← ContextEffect.get capability type with
    | .error error => return .error (.ofMessage error.message)
    | .ok service =>
      noteOf "act" module [.shown (← service.showing)]
      return .ok ()
  | .mustBeInteger key => do
    match (← ContextEffect.view).settings.integer .integer key with
    | .error error => return .error (.ofMessage error.message)
    | .ok n =>
      noteOf "act" module [.shown (View.decimal n)]
      return .ok ()
  | .step taken => do
    noteOf "act" module [← taken.act]
    return .ok ()

structure ModuleScript where
  name : String
  kind : String
  provides : List String := []
  requires : List Requirement := []
  points : List InjectionPoint := []
  setUp : List SetUpAction := []
  start : List LifeAction := []
  stop : List LifeAction := []

namespace ModuleScript

/-- A call that starts or stops the module. -/
def lifeCall (name : String) (phase : Phase) (actions : List LifeAction) (memory : Memory) :
    Effect (Except Failure Memory) := do
  noteOf phase.name name []
  return (← Action.takeAll LifeAction.take actions).map fun () => memory

def module (script : ModuleScript) : Module where
  name := script.name
  kind := script.kind
  provides := script.provides
  requires := script.requires
  points := script.points
  onFilled _ service := do
    noteOf "inject" script.name [.shown (← service.showing)]
  setUp memory := do
    noteOf Phase.setUp.name script.name []
    return (← Action.takeAll (SetUpAction.take script.name) script.setUp).map fun () => memory
  start := lifeCall script.name .start script.start
  stop := lifeCall script.name .shutdown script.stop

end ModuleScript

/-- The module that has a name and nothing else. -/
def Module.bare (name kind : String) : Module where
  name := name
  kind := kind

/-! ## Scripted extensions -/

/-- A vault extension that announces its preparation if it is asked to, and may fail at it. -/
def VaultExtension.scripted (name : String) (secrets : List (String × String)) (announces : Bool)
    (failure? : Option VaultError) : VaultExtension where
  name := name
  prepare monitor := do
    if announces then Effect.debug monitor ("vault " ++ name)
    match failure? with
    | some error => return .error error
    | none => return .ok ()
  vault := Effect.newVault (.ofList secrets)

/-- A settings extension that brings entries, or fails. -/
def SettingsExtension.scripted (name : String) (entries : List (String × String))
    (failure? : Option SettingsError) : SettingsExtension where
  name := name
  prepare _ :=
    match failure? with
    | some error => return .error error
    | none => return .ok (.ofList entries)

end ServiceHost
