import ServiceHost.Discovery.Error
import ServiceHost.Module.Basic

/-!
# Extensions — what a host discovers

Besides modules a host discovers three kinds of parts of its own: a vault, monitors, and a source
of settings. Each is prepared once, before any module is, and may fail then.
-/

set_option autoImplicit false

namespace ServiceHost

/-- Brings the vault of a host. -/
structure VaultExtension where
  name : String
  /-- Runs before the vault is opened, with the monitor of the host. -/
  prepare : Monitor → Effect (Except VaultError Unit) := fun _ => pure (.ok ())
  vault : Effect (Ticket Vault)

/-- Brings a monitor. -/
structure MonitorExtension where
  name : String
  monitor : Monitor

/-- Brings settings, which lie below those of the environment. -/
structure SettingsExtension where
  name : String
  /-- Reads the settings, with the monitor of the host. -/
  prepare : Monitor → Effect (Except SettingsError Settings)

inductive Extension where
  | service (module : Module)
  | vault (extension : VaultExtension)
  | monitor (extension : MonitorExtension)
  | settings (extension : SettingsExtension)

namespace Extension

/-- The point that an extension is looked up by. -/
def point : Extension → ExtensionPoint
  | .service _ => .service
  | .vault _ => .vault
  | .monitor _ => .monitor
  | .settings _ => .settings

def name : Extension → String
  | .service module => module.name
  | .vault extension => extension.name
  | .monitor extension => extension.name
  | .settings extension => extension.name

def toModule? : Extension → Option Module
  | .service module => some module
  | _ => none

def toVault? : Extension → Option VaultExtension
  | .vault extension => some extension
  | _ => none

def toMonitor? : Extension → Option MonitorExtension
  | .monitor extension => some extension
  | _ => none

def toSettings? : Extension → Option SettingsExtension
  | .settings extension => some extension
  | _ => none

end Extension

/-- An extension and where it came from. -/
structure Implementor where
  origin : String
  extension : Extension

namespace Implementor

def point (implementor : Implementor) : ExtensionPoint :=
  implementor.extension.point

/-- The view of an implementor in debug texts. -/
def debugText (implementor : Implementor) : String :=
  "Implementor \x7b point: " ++ Text.quoted implementor.point.name ++ ", origin: " ++
    Text.quoted implementor.origin ++ " \x7d"

end Implementor

end ServiceHost
