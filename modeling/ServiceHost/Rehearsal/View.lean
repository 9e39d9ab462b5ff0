import ServiceHost.Boot.Limits
import ServiceHost.Boot.Shutdown

/-!
# Views — what a rehearsal shows of the parts of a host

A rehearsal asks a host for its parts and shows them as JSON. Numbers that may not fit a double
are shown as the text of their digits.
-/

set_option autoImplicit false

namespace ServiceHost

namespace Answer

/-- The answer of a request that has nothing to show. -/
def nothing : Answer := .shown .null

/-- The answer of a request that was granted. -/
def granted : Answer := .shown (.string "ok")

/-- The answer of a request that shows a value or is refused. -/
def ofExcept {ε α : Type} (refusal : ε → Refusal) (view : α → Json) : Except ε α → Answer
  | .ok value => .shown (view value)
  | .error error => .refused (refusal error)

end Answer

namespace View

def texts (list : List String) : Json :=
  .array (list.map .string)

/-- A text, if there is one. -/
def text? : Option String → Json
  | some text => .string text
  | none => .null

def decimal (n : Int) : Json :=
  .string (String.ofList (Json.integerText n))

def textMap (entries : Std.TreeMap String String) : Json :=
  .object (entries.toList.map fun (key, value) => (key, .string value))

/-- Settings as they are seen from their root. -/
def settings (settings : Settings) : Json :=
  .object [
    ("node", .string settings.node),
    ("leaf", .bool settings.isLeaf),
    ("entries", textMap settings.entries),
    ("relative", textMap settings.relative)]

def limits (limits : Limits) : Json :=
  .object [("warn", decimal (millisOfNanos limits.warn)),
    ("timeout", decimal (millisOfNanos limits.timeout))]

def registry (registry : Registry) : Json :=
  let capabilities := registry.capabilities
  .object [
    ("ids", texts capabilities),
    ("len", .integer capabilities.length),
    ("empty", .bool capabilities.isEmpty)]

def status (status : HealthStatus) : Json :=
  .object [
    ("healthy", .bool status.isHealthy),
    ("results", .array (status.results.map CheckResult.toJson))]

/-- The cached statuses of a health service. -/
def health (service : HealthService) : Json :=
  .object [
    ("liveness", status (service.status .liveness)),
    ("readiness", status (service.status .readiness)),
    ("startup", status (service.status .startup))]

def typeTable (table : TypeTable) : Json :=
  .array (table.toList.map fun (name, type) => texts [name, type])

/-- A module by its name and its stage. -/
def stage (name : String) (stage : Stage) : Json :=
  texts [name, stage.name]

def stages (modules : List Hosted) : Json :=
  .array (modules.map fun hosted => stage hosted.name hosted.stage)

/-- The startup status of a host: its word, or the reason why it has none. -/
def startup : CheckResult → Json
  | .success => .string "success"
  | .failed reason => .object [("failed", .string reason)]

end View

end ServiceHost
