import ServiceHost.Builtin.CoreServices
import ServiceHost.Builtin.FileSettings
import ServiceHost.Discovery.Locator

/-!
# The manifest — what every host has built in
-/

set_option autoImplicit false

namespace ServiceHost

def builtinEntries : List ManifestEntry := [
  { name := "core-services", extension := .service CoreServices.module },
  { name := "fs-configuration", extension := .settings FileSettings.fromSurroundings }]

/-- The locator of what is built in. -/
def builtinLocator : Locator :=
  .manifest builtinEntries

end ServiceHost
