import ServiceHost.Report.Monitor
import ServiceHost.Vault
import ServiceHost.TypeTable
import ServiceHost.Health.Provider
import ServiceHost.Shelf

/-!
# Services — what a registry holds

A service is registered as one type and found only as that type. Plain values are services of
their own; a vault, a health service or a type table is shared by all who found it, so the
service is a ticket for it.
-/

set_option autoImplicit false

namespace ServiceHost

/-- The types that a service can be registered as. -/
inductive ServiceType where
  | byte
  | word
  | long
  | flag
  | text
  | monitor
  | vault
  | health
  | typeTable
deriving DecidableEq, Repr, Inhabited

/-- The name that messages show for a type. -/
def ServiceType.name : ServiceType → String
  | .byte => "u8"
  | .word => "u32"
  | .long => "i64"
  | .flag => "bool"
  | .text => "alloc::string::String"
  | .monitor => "dyn connector_core::monitor::Monitor"
  | .vault => "dyn connector_core::vault::Vault"
  | .health => "dyn connector_core::health::HealthCheckService"
  | .typeTable => "connector_core::types::TypeManager"

inductive Service where
  | byte (value : UInt8)
  | word (value : UInt32)
  | long (value : Int64)
  | flag (value : Bool)
  | text (value : String)
  | monitor (value : Monitor)
  | vault (ticket : Ticket Vault)
  | health (ticket : Ticket HealthService)
  | typeTable (ticket : Ticket TypeTable)

/-- The type that a service is registered as. -/
def Service.type : Service → ServiceType
  | .byte _ => .byte
  | .word _ => .word
  | .long _ => .long
  | .flag _ => .flag
  | .text _ => .text
  | .monitor _ => .monitor
  | .vault _ => .vault
  | .health _ => .health
  | .typeTable _ => .typeTable

/-- The view of a service in debug texts. -/
def Service.debugText (service : Service) : String :=
  "ServiceHandle(\"" ++ service.type.name ++ "\")"

end ServiceHost
