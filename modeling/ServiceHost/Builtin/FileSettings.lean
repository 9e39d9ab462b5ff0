import ServiceHost.Discovery.Extension
import ServiceHost.Settings.Tree

/-!
# File settings — the extension that reads settings from a file

A file that is not there is no error: the host then has no settings of its own. A file that is
there must be one, and must be readable as settings.
-/

set_option autoImplicit false

namespace ServiceHost

namespace FileSettings

def locationVariable : String := "EDC_FS_CONFIG"

/-- The file that is read when no variable names one. -/
def defaultLocation : Path := "dataspace-configuration.toml"

/-- The file that the surroundings ask for. -/
def location (surroundings : Surroundings) : Path :=
  (surroundings.valueOf? locationVariable).getD defaultLocation

/-- The settings in a file. The path must lead to a file; that file is opened by its full path,
and where every full path is longer than a path may be, no setting is read. -/
def read (files : FileTree) (path : Path) : Except SettingsError Settings :=
  match files.read? path with
  | none => .error (.unreadable (path ++ ": file not found"))
  | some _ =>
    match (files.fullPaths path).findSome? files.read? with
    | none => .ok {}
    | some text => Settings.ofToml text

/-- Reads the settings in a file, and reports what was found. -/
def load (path : Path) (monitor : Monitor) : Effect (Except SettingsError Settings) := do
  let files := (← Effect.surroundings).files
  if !files.has path then
    Effect.info monitor ("Configuration file does not exist: " ++ path ++ ". Ignoring.")
    return .ok {}
  else
    match read files path with
    | .error error => return .error error
    | .ok settings =>
      Effect.debug monitor ("Configuration file " ++ path ++ " loaded, " ++
        toString settings.entries.size ++ " setting(s)")
      return .ok settings

def name : String := "FS Configuration"

/-- The extension that reads a given file. -/
def extension (path : Path) : SettingsExtension where
  name := name
  prepare := load path

/-- The extension that reads the file that the surroundings ask for. -/
def fromSurroundings : SettingsExtension where
  name := name
  prepare := fun monitor => do load (location (← Effect.surroundings)) monitor

end FileSettings

end ServiceHost
