/-!
# Failures — a message and the causes behind it

What goes wrong inside a module reaches its host as a message with the messages of its causes,
the nearest first. Reported in full it is one line, the **chain**: every message that is part of
it, joined by colons, also where a message already quotes its cause.
-/

set_option autoImplicit false

namespace ServiceHost

/-- A failure with its causes, the nearest first. -/
structure Failure where
  message : String
  causes : List String := []
deriving DecidableEq, Repr, Inhabited

namespace Failure

/-- The failure of a chain of messages; without any it has an empty message. -/
def ofMessages : List String → Failure
  | [] => { message := "" }
  | message :: causes => { message, causes }

/-- The message with all causes, on one line. -/
def chain (failure : Failure) : String :=
  failure.causes.foldl (fun text cause => text ++ ": " ++ cause) failure.message

/-- The failure as the cause of another message. -/
def under (failure : Failure) (message : String) : Failure where
  message := message
  causes := failure.message :: failure.causes

end Failure

end ServiceHost
