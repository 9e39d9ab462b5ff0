import ServiceHost.Text.Blank
import ServiceHost.Text.Segments
import ServiceHost.Text.Quoted

/-!
# Capabilities — names of service contracts

A capability is named `namespace:name`. Either part is made of words of lower-case ASCII letters
and digits with **single** separators `.`, `_` or `-` between them. The registry stores any text;
only what a module declares is held to this form.
-/

set_option autoImplicit false

namespace ServiceHost

/-- Why a text is not a capability. -/
inductive CapabilityError where
  | empty
  | missingNamespace (id : String)
  | invalid (id : String)
deriving DecidableEq, Repr

def CapabilityError.message : CapabilityError → String
  | .empty => "capability id must not be empty"
  | .missingNamespace id => "capability id has no namespace: " ++ id
  | .invalid id => "capability id is invalid: " ++ id

namespace Capability

/-- The monitor of the process. -/
def monitor : String := "dataspace:monitor"

/-- The table of payload types. -/
def typeTable : String := "dataspace:type-manager"

/-- The store of secrets. -/
def vault : String := "dataspace:vault"

/-- The health checks. -/
def healthCheck : String := "dataspace:health-check-service"

/-- A character of a word. -/
def isWordChar (c : Char) : Bool :=
  ('a' ≤ c && c ≤ 'z') || ('0' ≤ c && c ≤ '9')

/-- A character between two words. -/
def isSeparator (c : Char) : Bool :=
  c = '.' || c = '_' || c = '-'

mutual

/-- Words with single separators between them, from the start of a word on. -/
def isWords : List Char → Bool
  | [] => false
  | c :: rest => isWordChar c && isWordsRest rest

/-- What may follow the first character of a word. -/
def isWordsRest : List Char → Bool
  | [] => true
  | c :: rest => if isWordChar c then isWordsRest rest else isSeparator c && isWords rest

end

/-- Checks the form of a capability. Blanks around it are refused, not trimmed. -/
def validate (id : String) : Except CapabilityError Unit :=
  if Text.isAllBlank id then .error .empty
  else match Text.cutOnce ':' id.toList with
    | (_, none) => .error (.missingNamespace id)
    | (before, some after) =>
      if isWords before && isWords after then .ok () else .error (.invalid id)

/-- The view of a capability in debug texts. -/
def debugText (id : String) : String :=
  "CapabilityId(" ++ Text.quoted id ++ ")"

/-- The view of the key of a service in debug texts. -/
def keyDebugText (id : String) : String :=
  "ServiceKey(" ++ Text.quoted id ++ ")"

end Capability

end ServiceHost
