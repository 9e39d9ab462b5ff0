import ServiceHost.Decimal.Shortest

/-!
# JSON values — trees of settings and payloads, and their text

One tree type carries everything structured that crosses a boundary: a document of settings
before it is flattened, a payload before it is written. **Members keep their order**: a tree
that came from a reader has them in ascending order of their names, because `Json.insert` puts
them there, and a tree that stands for a record has them in the order of its fields.

The text is compact. A number with a fraction uses the fewest digits that read back
(`numberLayout`); one that is not finite has no JSON text and is written `null`.
-/

set_option autoImplicit false

namespace ServiceHost

/-- A JSON value. `integer` and `real` are told apart because their texts are: `1` and `1.0`. -/
inductive Json where
  | null
  | bool (value : Bool)
  | integer (value : Int)
  | real (value : Binary64)
  | string (value : String)
  | array (items : List Json)
  | object (members : List (String × Json))
deriving Inhabited

namespace Json

/-- Numbers are positional from `0.00001` to below `1e16`, and always show a fraction there. -/
def numberLayout : DecimalLayout where
  leastPlace := -5
  greatestPlace := 15
  exponentMark := 'e'
  plusSign := true

/-- The lower-case hexadecimal digit for `n < 16`. -/
def hexDigit (n : Nat) : Char :=
  if n < 10 then Char.ofNat ('0'.toNat + n) else Char.ofNat ('a'.toNat + (n - 10))

/-- One character inside a JSON string: quote, backslash and the controls are escaped, nothing
else is. -/
def escapeChar (c : Char) : List Char :=
  if c = '"' then ['\\', '"']
  else if c = '\\' then ['\\', '\\']
  else if c = '\x08' then ['\\', 'b']
  else if c = '\x0c' then ['\\', 'f']
  else if c = '\n' then ['\\', 'n']
  else if c = '\r' then ['\\', 'r']
  else if c = '\t' then ['\\', 't']
  else if c.toNat < 0x20 then
    ['\\', 'u', '0', '0', hexDigit (c.toNat / 16), hexDigit (c.toNat % 16)]
  else [c]

/-- The characters of a string between quotes. -/
def stringText (text : String) : List Char :=
  '"' :: text.toList.flatMap escapeChar ++ ['"']

def integerText (n : Int) : List Char :=
  if n < 0 then '-' :: Nat.toDigits 10 n.natAbs else Nat.toDigits 10 n.natAbs

mutual

/-- The compact text of a value. -/
def text : Json → List Char
  | .null => "null".toList
  | .bool b => if b then "true".toList else "false".toList
  | .integer n => integerText n
  | .real x => (x.render? numberLayout).getD "null".toList
  | .string s => stringText s
  | .array items => '[' :: itemsText items
  | .object members => '\x7b' :: membersText members

/-- The items of an array up to and with the closing bracket. -/
def itemsText : List Json → List Char
  | [] => [']']
  | item :: rest => text item ++ moreItemsText rest

/-- The items after the first one. -/
def moreItemsText : List Json → List Char
  | [] => [']']
  | item :: rest => ',' :: (text item ++ moreItemsText rest)

/-- The members of an object up to and with the closing brace. -/
def membersText : List (String × Json) → List Char
  | [] => ['\x7d']
  | (name, value) :: rest => stringText name ++ ':' :: (text value ++ moreMembersText rest)

/-- The members after the first one. -/
def moreMembersText : List (String × Json) → List Char
  | [] => ['\x7d']
  | (name, value) :: rest => ',' :: (stringText name ++ ':' :: (text value ++ moreMembersText rest))

end

def render (value : Json) : String :=
  String.ofList value.text

/-- A double as a value; one that is not finite is null. -/
def ofReal (x : Binary64) : Json :=
  if x.isFinite then .real x else .null

/-- The member of that name in a list of members. -/
def find? {α : Type} (members : List (String × α)) (name : String) : Option α :=
  (members.find? (·.1 = name)).map (·.2)

/-- Puts a member at its place in an ascending list, or over the member of that name. -/
def insert {α : Type} (name : String) (value : α) : List (String × α) → List (String × α)
  | [] => [(name, value)]
  | (other, old) :: rest =>
    if name = other then (name, value) :: rest
    else if name < other then (name, value) :: (other, old) :: rest
    else (other, old) :: insert name value rest

/-- The object with the given members in ascending order; of two members of one name the later
one stays. -/
def ofMembers (members : List (String × Json)) : Json :=
  .object (members.foldl (fun sorted (name, value) => insert name value sorted) [])

/-- The member `name` of an object; any other value has none. -/
def member? (value : Json) (name : String) : Option Json :=
  match value with
  | .object members => find? members name
  | _ => none

@[simp] theorem find?_nil {α : Type} (name : String) :
    find? ([] : List (String × α)) name = none := rfl

@[simp] theorem find?_cons {α : Type} (other : String) (value : α) (rest : List (String × α))
    (name : String) :
    find? ((other, value) :: rest) name =
      if other = name then some value else find? rest name := by
  by_cases h : other = name <;> simp [find?, h]

/-- What was put under a name is found there, and every other name is left as it was. -/
theorem find?_insert {α : Type} (name : String) (value : α) (members : List (String × α))
    (wanted : String) :
    find? (insert name value members) wanted =
      if name = wanted then some value else find? members wanted := by
  induction members with
  | nil => simp [insert]
  | cons head rest ih =>
    obtain ⟨other, old⟩ := head
    by_cases hsame : name = other
    · subst hsame
      by_cases h : name = wanted <;> simp [insert, h]
    · by_cases hless : name < other
      · simp [insert, hsame, hless]
      · by_cases h : other = wanted
        · subst h
          simp [insert, hsame, hless]
        · simp [insert, hsame, hless, h, ih]

end Json

end ServiceHost
