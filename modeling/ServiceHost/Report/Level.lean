/-!
# Levels — how grave a report is

Two scales meet here: the four levels at which modules report to a monitor, and the five at
which the process log keeps records. A monitor that writes to the log maps the one to the other.
-/

set_option autoImplicit false

namespace ServiceHost

/-- How grave a report to a monitor is. -/
inductive Level where
  | debug
  | info
  | warning
  | severe
deriving DecidableEq, Repr, Inhabited

/-- The name of a level in a recorded report. -/
def Level.name : Level → String
  | .debug => "debug"
  | .info => "info"
  | .warning => "warning"
  | .severe => "severe"

/-- The level of a record in the process log. -/
inductive LogLevel where
  | error
  | warn
  | info
  | debug
  | trace
deriving DecidableEq, Repr, Inhabited

namespace LogLevel

def name : LogLevel → String
  | .error => "error"
  | .warn => "warn"
  | .info => "info"
  | .debug => "debug"
  | .trace => "trace"

/-- Position on the scale, the gravest first. -/
def rank : LogLevel → Nat
  | .error => 1
  | .warn => 2
  | .info => 3
  | .debug => 4
  | .trace => 5

/-- All levels, the gravest first. -/
def all : List LogLevel := [.error, .warn, .info, .debug, .trace]

/-- A log at `limit` keeps records of `level`. -/
def keeps (limit level : LogLevel) : Bool :=
  level.rank ≤ limit.rank

end LogLevel

def Level.toLogLevel : Level → LogLevel
  | .debug => .debug
  | .info => .info
  | .warning => .warn
  | .severe => .error

end ServiceHost
