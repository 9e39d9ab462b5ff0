import ServiceHost.Payload

/-!
# Health statuses — the results of checks, and their JSON form

A check succeeds or fails with a reason; a status is a list of results and is healthy when none
of them failed, so **the empty status is healthy**.

As JSON a result is an object tagged by `status`. Its tag may stand anywhere among its members,
so the other members are held as trees until the tag is known; a result may also be spelled as
the list of its fields, the tag first.
-/

set_option autoImplicit false

namespace ServiceHost

inductive CheckKind where
  | liveness
  | readiness
  | startup
deriving DecidableEq, Repr

inductive CheckResult where
  | success
  | failed (reason : String)
deriving DecidableEq, Repr, Inhabited

namespace CheckResult

def isHealthy : CheckResult → Bool
  | .success => true
  | .failed _ => false

/-- The tag that a result is written under. -/
def tag : CheckResult → String
  | .success => "success"
  | .failed _ => "failed"

/-- The tree of a result: the tag first, then its reason if it has one. -/
def toJson (result : CheckResult) : Json :=
  match result with
  | .success => .object [("status", .string result.tag)]
  | .failed reason => .object [("status", .string result.tag), ("reason", .string reason)]

/-- The two tags. -/
inductive Tag where
  | success
  | failed
deriving DecidableEq, Repr

/-- Reads a tag, which is one of two strings. -/
def readTag (levels : Nat) : Json.Reader Tag := fun cs =>
  match (Payload.reader levels cs : Except Json.Fault (String × List Char)) with
  | .error fault => .error fault
  | .ok (text, rest) =>
    if text = "success" then .ok (.success, rest)
    else if text = "failed" then .ok (.failed, rest)
    else .error .mismatch

/-- The result of a tag and the other members of its object, in their order. A failure has
exactly one member `reason`, a string; any other member is ignored. -/
def ofMembers (tag : Tag) (members : List (String × Json)) : Except Json.Fault CheckResult :=
  match tag, members.filter (·.1 = "reason") with
  | .success, _ => .ok .success
  | .failed, [(_, .string reason)] => .ok (.failed reason)
  | .failed, _ => .error .mismatch

/-- The result of a tag and the fields that follow it in a list. -/
def ofFields (tag : Tag) (fields : List Json) : Except Json.Fault CheckResult :=
  match tag, fields with
  | .success, [] => .ok .success
  | .failed, [.string reason] => .ok (.failed reason)
  | _, _ => .error .mismatch

/-- Reads a member of a result from its colon on: the tag, or another one, which is put before those
read so far. -/
def readMember (levels : Nat) (state : Option Tag × List (String × Json)) (name : String) :
    Json.Reader (Option Tag × List (String × Json)) := fun cs => do
  let (tag?, others) := state
  if name = "status" then
    if tag?.isSome then .error .mismatch
    else
      let (tag, rest) ← readTag levels (← Json.expectColon cs)
      return ((some tag, others), rest)
  else
    let (value, rest) ← Json.readValue levels (← Json.expectColon cs)
    return ((tag?, (name, value) :: others), rest)

/-- Reads a result after its opening brace. -/
def readMembers (levels : Nat) : Json.Reader CheckResult := fun cs =>
  match Json.foldMembers Json.readStringRest (readMember levels) (cs.length + 1) true (none, []) cs with
  | .error fault => .error fault
  | .ok ((none, _), _) => .error .mismatch
  | .ok ((some tag, others), rest) => (ofMembers tag others.reverse).map (·, rest)

/-- Reads a result after its opening bracket. -/
def readFields (levels : Nat) : Json.Reader CheckResult := fun cs =>
  let item (state : Option Tag × List Json) : Json.Reader (Option Tag × List Json) := fun cs =>
    match state with
    | (none, fields) => (readTag levels cs).map fun (tag, rest) => ((some tag, fields), rest)
    | (tag?, fields) => (Json.readValue levels cs).map fun (value, rest) =>
      ((tag?, value :: fields), rest)
  match Json.foldItems item (cs.length + 1) true (none, []) cs with
  | .error fault => .error fault
  | .ok ((none, _), _) => .error .mismatch
  | .ok ((some tag, fields), rest) => (ofFields tag fields.reverse).map (·, rest)

instance : Payload CheckResult where
  reader levels cs :=
    match Json.skipSpace cs with
    | '[' :: _ => Payload.readBracketed '[' readFields levels cs
    | _ => Payload.readBracketed '\x7b' readMembers levels cs
  toJson := toJson

end CheckResult

/-- The results of all checks of one kind. -/
structure HealthStatus where
  results : List CheckResult := []
deriving DecidableEq, Repr, Inhabited

namespace HealthStatus

/-- No check failed. -/
def isHealthy (status : HealthStatus) : Bool :=
  status.results.all CheckResult.isHealthy

/-- Reads a member of a status from its colon on: the results, or another one, which is skipped. -/
def readMember (levels : Nat) (found : Option (List CheckResult)) (name : String) :
    Json.Reader (Option (List CheckResult)) := fun cs => do
  if name = "results" then
    if found.isSome then .error .mismatch
    else
      let (results, rest) ← Payload.reader levels (← Json.expectColon cs)
      return (some results, rest)
  else
    let cs ← Json.expectColon cs
    return (found, ← Json.skipValue (cs.length + 1) cs)

/-- Reads a status after its opening brace: exactly one member `results`, and any others. -/
def readMembers (levels : Nat) : Json.Reader HealthStatus := fun cs =>
  match Json.foldMembers Json.readStringRest (readMember levels) (cs.length + 1) true none cs with
  | .error fault => .error fault
  | .ok (none, _) => .error .mismatch
  | .ok (some results, rest) => .ok (⟨results⟩, rest)

/-- Reads a status after its opening bracket: exactly one item, its results. -/
def readFields (levels : Nat) : Json.Reader HealthStatus := fun cs =>
  match Json.skipSpace cs with
  | [] => .error .unfinished
  | ']' :: _ => .error .mismatch
  | cs =>
    match Payload.reader levels cs with
    | .error fault => .error fault
    | .ok (results, rest) =>
      match Json.skipSpace rest with
      | [] => .error .unfinished
      | ']' :: rest => .ok (⟨results⟩, rest)
      | _ => .error .malformed

instance : Payload HealthStatus where
  reader levels cs :=
    match Json.skipSpace cs with
    | '[' :: _ => Payload.readBracketed '[' readFields levels cs
    | _ => Payload.readBracketed '\x7b' readMembers levels cs
  toJson status := .object [("results", Payload.toJson status.results)]

end HealthStatus

end ServiceHost
