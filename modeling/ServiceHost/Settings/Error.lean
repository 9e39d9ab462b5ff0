/-!
# Settings errors — why a setting or a source of settings was refused
-/

set_option autoImplicit false

namespace ServiceHost

/-- Why a setting or a source of settings was refused. Keys are absolute, and values are as they
were given, blanks included. -/
inductive SettingsError where
  | notFound (key : String)
  | unparseable (key value kind : String)
  /-- A source that cannot be understood. -/
  | source (detail : String)
  /-- A source that cannot be read. -/
  | unreadable (detail : String)
deriving DecidableEq, Repr

def SettingsError.message : SettingsError → String
  | .notFound key => "no setting found for key " ++ key
  | .unparseable key value kind =>
    "setting " ++ key ++ " with value " ++ value ++ " cannot be parsed to " ++ kind
  | .source detail => "invalid configuration source: " ++ detail
  | .unreadable detail => "failed to read configuration: " ++ detail

end ServiceHost
