import ServiceHost.Context.Effect
import ServiceHost.Module.Stage

/-!
# Modules — declarations and behaviour

A module declares what it provides and what it needs, and behaves in three calls: it is set up
with the context of its host, started when every module is set up, and stopped. What it keeps
between the calls is its **memory**: services under names of its own, among them those that the
host injected into its slots.

A hosted module is a module in the hands of a host, with the stage that it has reached.
-/

set_option autoImplicit false

namespace ServiceHost

/-- A capability that a module looks up on its own. -/
structure Requirement where
  capability : String
  required : Bool := true
deriving DecidableEq, Repr

/-- A slot of a module that the host fills with a service. -/
structure InjectionPoint where
  field : String
  capability : String
  /-- The type that the service must be registered as. -/
  service : ServiceType
  required : Bool := true
  /-- The kind of module that the slot belongs to. -/
  target : String
deriving DecidableEq, Repr

namespace InjectionPoint

/-- What the slot says about itself. -/
def description (point : InjectionPoint) : String :=
  "field \"" ++ point.field ++ "\" of type [" ++ point.service.name ++ "] " ++
    (if point.required then "required" else "wanted") ++ " by " ++ point.target

/-- The view of a slot in debug texts. -/
def debugText (point : InjectionPoint) : String :=
  "InjectionPoint \x7b field: " ++ Text.quoted point.field ++ ", capability: " ++
    Capability.debugText point.capability ++ ", required: " ++ toString point.required ++ " \x7d"

end InjectionPoint

/-- The services that a module keeps, the latest first, under names of its own. -/
abbrev Memory := List (String × Service)

def Memory.find? (memory : Memory) (name : String) : Option Service :=
  (List.find? (·.1 = name) memory).map (·.2)

/-- A module. Each of its calls is given its memory, and answers with the memory after it. -/
structure Module where
  name : String
  /-- The kind of module, which its slots must target. -/
  kind : String
  provides : List String := []
  requires : List Requirement := []
  points : List InjectionPoint := []
  /-- What happens when a slot is filled, besides keeping the service. -/
  onFilled : InjectionPoint → Service → Effect Unit := fun _ _ => pure ()
  setUp : Memory → ContextEffect (Except Failure Memory) := fun memory => pure (.ok memory)
  start : Memory → Effect (Except Failure Memory) := fun memory => pure (.ok memory)
  stop : Memory → Effect (Except Failure Memory) := fun memory => pure (.ok memory)

/-- A module in the hands of a host. -/
structure Hosted where
  module : Module
  memory : Memory := []
  stage : Stage := .discovered

namespace Hosted

/-- A module as it was discovered. -/
def fresh (module : Module) : Hosted := { module }

def name (hosted : Hosted) : String := hosted.module.name

/-- Everything that a module needs, slots before other requirements. -/
def requirements (hosted : Hosted) : List Requirement :=
  hosted.module.points.map (fun point => ⟨point.capability, point.required⟩) ++
    hosted.module.requires

/-- The view of a hosted module in debug texts. -/
def debugText (hosted : Hosted) : String :=
  "InjectionContainer \x7b name: " ++ Text.quoted hosted.name ++ ", injection_points: [" ++
    ", ".intercalate (hosted.module.points.map InjectionPoint.debugText) ++ "], state: " ++
    hosted.stage.debugText ++ " \x7d"

end Hosted

end ServiceHost
