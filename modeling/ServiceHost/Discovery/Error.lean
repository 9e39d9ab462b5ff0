/-!
# Discovery errors — why an extension was not found
-/

set_option autoImplicit false

namespace ServiceHost

/-- What extensions are looked up by: a name. Any name may be asked for, and extensions are found
under four of them. -/
structure ExtensionPoint where
  name : String
deriving DecidableEq, Repr, Inhabited

namespace ExtensionPoint

def service : ExtensionPoint := ⟨"ServiceExtension"⟩

def vault : ExtensionPoint := ⟨"VaultExtension"⟩

def monitor : ExtensionPoint := ⟨"MonitorExtension"⟩

def settings : ExtensionPoint := ⟨"ConfigurationExtension"⟩

/-- The points that extensions are found under. -/
def all : List ExtensionPoint := [service, vault, monitor, settings]

end ExtensionPoint

inductive DiscoveryError where
  | multiple (point : ExtensionPoint) (origins : List String)
  | notFound (point : ExtensionPoint)
  /-- A locator answered with an extension of another point. -/
  | typeMismatch (requested registered : ExtensionPoint) (origin : String)
deriving DecidableEq, Repr

def DiscoveryError.message : DiscoveryError → String
  | .multiple point origins =>
    "multiple implementations found for " ++ point.name ++ ": " ++ ", ".intercalate origins
  | .notFound point => "no implementation found for " ++ point.name
  | .typeMismatch requested registered origin =>
    "implementation " ++ origin ++ " was registered as " ++ registered.name ++
      ", requested as " ++ requested.name

end ServiceHost
