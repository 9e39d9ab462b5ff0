import ServiceHost.Json.Reader
import Std.Data.TreeMap

/-!
# Payloads — values that travel as JSON text

A type is a payload when it says how a value is read from the front of a text and what tree its
text is written from. **Writing then reading gives the value back**; reading refuses with the
first fault of the text, which for JSON of another shape than the type's is a mismatch.

Scalars, lists, optional values and maps are here; a record or a tagged union has its instance
beside its type.
-/

set_option autoImplicit false

namespace ServiceHost

/-- Values of `α` are read from JSON text and written as JSON trees. `levels` is the number of
brackets that the reader may still open. -/
class Payload (α : Type) where
  reader : (levels : Nat) → Json.Reader α
  toJson : α → Json

namespace Payload

/-- The value that a whole text spells. -/
def read (α : Type) [Payload α] (text : String) : Except Json.Fault α :=
  Json.readWhole (reader Json.nestingLimit) text

def write {α : Type} [Payload α] (value : α) : String :=
  (toJson value).render

/-- Any value is a payload of its own. -/
instance : Payload Json where
  reader := Json.readValue
  toJson value := value

/-! ## Scalars -/

/-- Reads an integer from `least` to `greatest`. A number with a fraction or an exponent is not
one, however whole its value is. -/
def readIntegerBetween (least greatest : Int) : Json.Reader Int := fun cs =>
  match Json.skipSpace cs with
  | [] => .error .unfinished
  | c :: rest =>
    if Json.startsNumber c then
      match Json.readNumber (c :: rest) with
      | .error fault => .error fault
      | .ok (.integer n, rest) =>
        if least ≤ n ∧ n ≤ greatest then .ok (n, rest) else .error .mismatch
      | .ok _ => .error .mismatch
    else .error (Json.wrongType (c :: rest))

instance : Payload UInt8 where
  reader _ cs := (readIntegerBetween 0 (UInt8.size - 1) cs).map fun (n, rest) =>
    (UInt8.ofNat n.toNat, rest)
  toJson n := .integer n.toNat

instance : Payload UInt32 where
  reader _ cs := (readIntegerBetween 0 (UInt32.size - 1) cs).map fun (n, rest) =>
    (UInt32.ofNat n.toNat, rest)
  toJson n := .integer n.toNat

instance : Payload UInt64 where
  reader _ cs := (readIntegerBetween 0 (UInt64.size - 1) cs).map fun (n, rest) =>
    (UInt64.ofNat n.toNat, rest)
  toJson n := .integer n.toNat

instance : Payload Int32 where
  reader _ cs := (readIntegerBetween Int32.minValue.toInt Int32.maxValue.toInt cs).map fun (n, rest) =>
    (Int32.ofInt n, rest)
  toJson n := .integer n.toInt

instance : Payload Int64 where
  reader _ cs := (readIntegerBetween Int64.minValue.toInt Int64.maxValue.toInt cs).map fun (n, rest) =>
    (Int64.ofInt n, rest)
  toJson n := .integer n.toInt

instance : Payload Bool where
  reader _ cs :=
    match Json.skipSpace cs with
    | [] => .error .unfinished
    | 't' :: rest => Json.readWord "rue" true rest
    | 'f' :: rest => Json.readWord "alse" false rest
    | cs => .error (Json.wrongType cs)
  toJson := .bool

instance : Payload String where
  reader _ cs :=
    match Json.skipSpace cs with
    | [] => .error .unfinished
    | '"' :: rest => Json.readStringRest rest
    | cs => .error (Json.wrongType cs)
  toJson := .string

/-! ## Containers -/

/-- Reads an optional value; `n` starts the word that stands for an absent one. -/
def readOptional {α : Type} [Payload α] (levels : Nat) : Json.Reader (Option α) := fun cs =>
  match Json.skipSpace cs with
  | 'n' :: rest => Json.readWord "ull" none rest
  | cs => (reader levels cs).map fun (value, rest) => (some value, rest)

/-- An absent value is written `null`. -/
instance {α : Type} [Payload α] : Payload (Option α) where
  reader := readOptional
  toJson
    | none => .null
    | some value => toJson value

/-- Reads what stands between brackets, the opening one first; `inside` is given the levels left
inside them. -/
def readBracketed {α : Type} (bracket : Char) (inside : (levels : Nat) → Json.Reader α)
    (levels : Nat) : Json.Reader α := fun cs =>
  match Json.skipSpace cs with
  | [] => .error .unfinished
  | c :: rest =>
    if c ≠ bracket then .error (Json.wrongType (c :: rest))
    else match levels with
      | 0 => .error .malformed
      | levels + 1 => inside levels rest

/-- Reads an item of a list, and puts it before those read so far. -/
def readItem {α : Type} [Payload α] (levels : Nat) (items : List α) : Json.Reader (List α) := fun cs =>
  (reader levels cs).map fun (value, rest) => (value :: items, rest)

instance {α : Type} [Payload α] : Payload (List α) where
  reader := readBracketed '[' fun levels cs =>
    (Json.foldItems (readItem levels) (cs.length + 1) true [] cs).map fun (items, rest) =>
      (items.reverse, rest)
  toJson items := .array (items.map toJson)

/-- Reads a member of a map from its colon on. -/
def readEntry {α : Type} [Payload α] (levels : Nat) (members : Std.TreeMap String α) (name : String) :
    Json.Reader (Std.TreeMap String α) := fun cs => do
  let (value, rest) ← reader levels (← Json.expectColon cs)
  return (members.insert name value, rest)

/-- A map is an object with its keys in ascending order; of two members of one name in a text
the later one is kept. -/
instance {α : Type} [Payload α] : Payload (Std.TreeMap String α) where
  reader := readBracketed '\x7b' fun levels cs =>
    Json.foldMembers Json.readStringRest (readEntry levels) (cs.length + 1) true ∅ cs
  toJson members := .object (members.toList.map fun (name, value) => (name, toJson value))

end Payload

end ServiceHost
