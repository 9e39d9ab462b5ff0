import ServiceHost.Files
import ServiceHost.Report.Level

/-!
# Log errors — why the process log was not set up
-/

set_option autoImplicit false

namespace ServiceHost

/-- Where a log writes to: a directory, or the standard error stream. -/
abbrev LogDestination := Option Path

def LogDestination.name : LogDestination → String
  | some directory => directory
  | none => "stderr"

/-- Why the process log was not set up. -/
inductive LogError where
  | unknownLevel (text : String)
  | blankDirectory
  | relativeDirectory (path : Path)
  | noDirectory (path : Path) (cause : FileError)
  /-- What writes the records did not start. -/
  | notStarted (detail : String)
  /-- The log is set up with another destination. -/
  | otherDestination (current requested : LogDestination)
  /-- The log is set up at another level. -/
  | otherLevel (current requested : LogLevel)
deriving DecidableEq, Repr

def LogError.message : LogError → String
  | .unknownLevel text =>
    "log level `" ++ text ++ "` is not one of trace, debug, info, warn, error"
  | .blankDirectory => "log directory is blank"
  | .relativeDirectory path => "log directory `" ++ path ++ "` is relative"
  | .noDirectory path cause => "cannot create log directory `" ++ path ++ "`: " ++ cause.message
  | .notStarted detail => "logger backend did not start: " ++ detail
  | .otherDestination current requested =>
    "logging already writes to `" ++ current.name ++ "`; refusing to switch to `" ++
      requested.name ++ "`"
  | .otherLevel current requested =>
    "logging already runs at `" ++ current.name ++ "`; refusing to switch to `" ++
      requested.name ++ "`"

end ServiceHost
