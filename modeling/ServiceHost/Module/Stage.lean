/-!
# Stages — how far a module has come

A module goes through five stages and **never skips one or goes back**.
-/

set_option autoImplicit false

namespace ServiceHost

/-- How far a module has come. -/
inductive Stage where
  | discovered
  | injected
  | initialized
  | started
  | stopped
deriving DecidableEq, Repr, Inhabited

namespace Stage

def name : Stage → String
  | .discovered => "discovered"
  | .injected => "injected"
  | .initialized => "initialized"
  | .started => "started"
  | .stopped => "stopped"

/-- The name of a stage in debug texts. -/
def debugText : Stage → String
  | .discovered => "Discovered"
  | .injected => "Injected"
  | .initialized => "Initialized"
  | .started => "Started"
  | .stopped => "Stopped"

/-- Position in the life of a module. -/
def rank : Stage → Nat
  | .discovered => 0
  | .injected => 1
  | .initialized => 2
  | .started => 3
  | .stopped => 4

def all : List Stage := [.discovered, .injected, .initialized, .started, .stopped]

/-- The stage `next` directly follows this one. -/
def canAdvanceTo (stage next : Stage) : Bool :=
  next.rank = stage.rank + 1

def isBefore (stage other : Stage) : Bool :=
  stage.rank < other.rank

end Stage

end ServiceHost
