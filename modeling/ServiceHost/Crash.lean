/-!
# Crashes — why a process came down

Most of what can go wrong is an error that somebody is told of. A few things are not: they end the
process where they happen, and nothing that would have followed takes place.
-/

set_option autoImplicit false

namespace ServiceHost

inductive Crash where
  /-- A text was to be cut at a byte inside one of its characters. -/
  | dividedCharacter (text : String) (byte : Nat)
deriving DecidableEq, Repr

/-- The message that a crash leaves behind. -/
def Crash.message : Crash → String
  | .dividedCharacter text byte =>
    "byte index " ++ toString byte ++ " is not a char boundary of `" ++ text ++ "`"

end ServiceHost
