import ServiceHost.Service

/-!
# Registries — services under capabilities

A capability names at most one service. Registering over it replaces the service; who finds a
service under a capability asks for a type, and **another type is a failure and not an absence**.
-/

set_option autoImplicit false

namespace ServiceHost

inductive LookupError where
  | missing (capability : String)
  | typeMismatch (capability expected actual : String)
deriving DecidableEq, Repr

def LookupError.message : LookupError → String
  | .missing capability => "no service registered for capability " ++ capability
  | .typeMismatch capability expected actual =>
    "capability " ++ capability ++ " is registered as " ++ actual ++ ", requested as " ++ expected

/-- Services under capabilities. -/
structure Registry where
  services : Std.TreeMap String Service := ∅

instance : Inhabited Registry := ⟨{}⟩

namespace Registry

def find? (registry : Registry) (capability : String) : Option Service :=
  registry.services[capability]?

/-- There is a service under a capability. -/
def has (registry : Registry) (capability : String) : Bool :=
  (registry.find? capability).isSome

/-- The registry with a service under a capability, over any that was there. -/
def insert (registry : Registry) (capability : String) (service : Service) : Registry where
  services := registry.services.insert capability service

/-- The capabilities that have a service, ascending. -/
def capabilities (registry : Registry) : List String :=
  registry.services.keys

/-- The service under a capability; absence is a failure only if it is required. -/
def resolve (registry : Registry) (capability : String) (required : Bool) :
    Except LookupError (Option Service) :=
  match registry.find? capability with
  | some service => .ok (some service)
  | none => if required then .error (.missing capability) else .ok none

/-- The service under a capability, which must be there as a service of that type. -/
def get (registry : Registry) (capability : String) (type : ServiceType) :
    Except LookupError Service :=
  match registry.find? capability with
  | none => .error (.missing capability)
  | some service =>
    if service.type = type then .ok service
    else .error (.typeMismatch capability type.name service.type.name)

@[simp] theorem find?_empty (capability : String) : find? {} capability = none := by
  simp [find?]

/-- A registered service is found under its capability, and no other is affected. -/
theorem find?_insert (registry : Registry) (capability : String) (service : Service)
    (wanted : String) :
    (registry.insert capability service).find? wanted =
      if capability = wanted then some service else registry.find? wanted := by
  simp only [find?, insert]
  grind

end Registry

end ServiceHost
