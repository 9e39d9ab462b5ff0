import ServiceHost.Context.Basic

/-!
# Injection — filling the slots of a module from the registry

An injector is given a hosted module and answers with the module after its work, and with the
error that stopped it if there was one. The default injector goes through the slots **in order**:
a slot is filled with the service that the registry holds, an optional slot whose capability is
absent stays empty, and the first slot that cannot be filled as it should ends the work.
-/

set_option autoImplicit false

namespace ServiceHost

namespace Hosted

/-- Moves a module on to the next stage. A stage that does not follow is refused, which is worth
a record in the process log. -/
def advance (next : Stage) (hosted : Hosted) : HostM Hosted :=
  if hosted.stage.canAdvanceTo next then return { hosted with stage := next }
  else do
    Host.write (.delivered (.logged .warn ("extension `" ++ hosted.name ++
      "` cannot move from " ++ hosted.stage.name ++ " to " ++ next.name)))
    return hosted

end Hosted

/-- Fills the slots of a module, and moves it on once that is done. -/
abbrev Injector := Hosted → HostM (Hosted × Except InjectionError Unit)

namespace Injection

/-- What the registry has for a slot of a module. -/
inductive Supply where
  | service (service : Service)
  /-- The slot is optional and stays empty. -/
  | absent
  | refused (error : InjectionError)

/-- What a registry has for a slot of a module. -/
def supply (registry : Registry) (module : Module) (point : InjectionPoint) : Supply :=
  match registry.find? point.capability with
  | none =>
    if point.required then
      .refused (.missingDependency module.name point.capability point.field point.required)
    else .absent
  | some service =>
    if point.target ≠ module.kind then
      .refused (.targetMismatch module.name point.field point.target)
    else if service.type ≠ point.service then
      .refused (.serviceTypeMismatch module.name point.capability point.service.name
        service.type.name)
    else .service service

def fillSlot (hosted : Hosted) (point : InjectionPoint) :
    HostM (Hosted × Except InjectionError Unit) := do
  match supply (← get).context.registry hosted.module point with
  | .refused error => return (hosted, .error error)
  | .absent =>
    Host.debug (hosted.name ++ ": optional capability " ++ point.capability ++ " absent, " ++
      point.field ++ " left unset")
    return (hosted, .ok ())
  | .service service =>
    Host.effect (hosted.module.onFilled point service)
    return ({ hosted with memory := (point.field, service) :: hosted.memory }, .ok ())

/-- Fills slots in order, up to the first that is refused. -/
def fillSlots (hosted : Hosted) : List InjectionPoint → HostM (Hosted × Except InjectionError Unit)
  | [] => return (hosted, .ok ())
  | point :: rest => do
    match ← fillSlot hosted point with
    | (hosted, .ok ()) => fillSlots hosted rest
    | (hosted, .error error) => return (hosted, .error error)

/-- Fills all slots of a module from the registry. -/
def fromRegistry : Injector := fun hosted => do
  match ← fillSlots hosted hosted.module.points with
  | (hosted, .ok ()) => return (← hosted.advance .injected, .ok ())
  | (hosted, .error error) => return (hosted, .error error)

end Injection

end ServiceHost
