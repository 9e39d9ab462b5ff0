import ServiceHost.Settings.Error
import ServiceHost.Text.Blank
import ServiceHost.Text.Segments
import Std.Data.TreeMap

/-!
# Settings — texts under dotted keys, seen from a root

The entries keep their **absolute** keys whatever the root is; `Settings.under` only moves the
root and narrows the entries to those whose key starts with the new one. A key given to a getter
is relative to the root, so `(s.under p).text? k` looks where `s.text? (p ++ "." ++ k)` looks.

"Starts with" is meant letter by letter: below the root `a.b` stand the entries of `a.b`, of
`a.b.c` and of `a.bc`.
-/

set_option autoImplicit false

namespace ServiceHost

/-- Read-only settings, seen from a root. -/
structure Settings where
  root : String := ""
  entries : Std.TreeMap String String := ∅

namespace Settings

/-- The settings with these entries, seen from the top; of two entries of one key the later one
is kept. -/
def ofList (entries : List (String × String)) : Settings where
  entries := Std.TreeMap.ofList entries

def empty : Settings := {}

instance : Inhabited Settings := ⟨empty⟩

/-- The absolute form of a key. -/
def absolute (s : Settings) (key : String) : String :=
  if s.root = "" then key else s.root ++ "." ++ key

def text? (s : Settings) (key : String) : Option String :=
  s.entries[s.absolute key]?

/-- There is a setting under a key. -/
def has (s : Settings) (key : String) : Bool :=
  (s.text? key).isSome

/-- The text under a key, which must be there. -/
def text (s : Settings) (key : String) : Except SettingsError String :=
  match s.text? key with
  | some value => .ok value
  | none => .error (.notFound (s.absolute key))

/-- The text under a key, or the default. -/
def textOr (s : Settings) (key default : String) : String :=
  (s.text? key).getD default

/-! ## Roots -/

/-- The key starts with `root`, letter by letter. -/
def startsWith (root key : String) : Bool :=
  root.toList.isPrefixOf key.toList

/-- The settings seen from `path`, and of their entries those whose key starts with it. -/
def under (s : Settings) (path : String) : Settings where
  root := s.absolute path
  entries := s.entries.filter fun key _ => startsWith (s.absolute path) key

/-- A key as it is seen from a root: without the root in front and without the dots that follow
it. A key that does not start with the root is kept. -/
def relativeKey (root key : String) : String :=
  if root = "" then key
  else if startsWith root key then
    String.ofList ((key.toList.drop root.toList.length).dropWhile (· = '.'))
  else key

/-- The entries under their relative keys; of two that have one relative key the greater absolute
key is kept. -/
def relative (s : Settings) : Std.TreeMap String String :=
  Std.TreeMap.ofList (s.entries.toList.map fun (key, value) => (relativeKey s.root key, value))

/-- The first segment of a dotted key. -/
def firstSegment (key : String) : String :=
  String.ofList (Text.cutOnce '.' key.toList).1

/-- The distinct first segments of the relative keys, ascending. -/
def groupNames (s : Settings) : List String :=
  (Std.TreeMap.ofList (s.relative.toList.map fun (key, _) => (firstSegment key, ()))).keys

/-- The settings under each distinct first segment of the relative keys. -/
def groups (s : Settings) : List Settings :=
  s.groupNames.map s.under

/-- The last segment of the root. -/
def node (s : Settings) : String :=
  (Text.segments '.' s.root).getLast?.getD ""

/-- The root is itself a key, and the only one. -/
def isLeaf (s : Settings) : Bool :=
  s.entries.size = 1 && s.entries.contains s.root

/-! ## Typed settings -/

/-- A kind of integers that a setting may hold. -/
structure IntegerKind where
  label : String
  least : Int
  greatest : Int

namespace IntegerKind

def integer : IntegerKind :=
  ⟨"integer", Int32.minValue.toInt, Int32.maxValue.toInt⟩

def long : IntegerKind :=
  ⟨"long", Int64.minValue.toInt, Int64.maxValue.toInt⟩

def unsignedLong : IntegerKind :=
  ⟨"unsigned long", 0, UInt64.size - 1⟩

/-- The kind has negative integers, and only then a minus is a sign. -/
def isSigned (kind : IntegerKind) : Bool :=
  kind.least < 0

end IntegerKind

/-- The number that a run of ASCII digits spells; there must be at least one. -/
def digitsValue? (digits : List Char) : Option Nat :=
  if digits.isEmpty || !digits.all Char.isDigit then none
  else some (digits.foldl (fun value c => value * 10 + (c.toNat - '0'.toNat)) 0)

/-- The integer that a text without blanks spells: a sign if it has one, and digits. -/
def IntegerKind.spelled? (kind : IntegerKind) (cs : List Char) : Option Int :=
  match cs with
  | '+' :: digits => (digitsValue? digits).map Int.ofNat
  | '-' :: digits =>
    if kind.isSigned then (digitsValue? digits).map fun magnitude => -Int.ofNat magnitude
    else none
  | digits => (digitsValue? digits).map Int.ofNat

/-- The integer that a text spells between blanks, if it is one of the kind. -/
def IntegerKind.read? (kind : IntegerKind) (text : String) : Option Int :=
  (kind.spelled? (Text.trimChars text.toList)).filter fun n => kind.least ≤ n ∧ n ≤ kind.greatest

/-- The truth value that a text spells between blanks. -/
def readFlag? (text : String) : Option Bool :=
  let word := Text.trim text
  if word = "true" then some true else if word = "false" then some false else none

/-- The value that `read?` finds in a text, or an error that names the key and the kind. -/
def parsed {α : Type} (s : Settings) (key value kind : String) (read? : String → Option α) :
    Except SettingsError α :=
  match read? value with
  | some parsed => .ok parsed
  | none => .error (.unparseable (s.absolute key) value kind)

/-- The integer under a key, which must be there. -/
def integer (s : Settings) (kind : IntegerKind) (key : String) : Except SettingsError Int :=
  match s.text key with
  | .ok value => s.parsed key value kind.label kind.read?
  | .error e => .error e

/-- The integer under a key, or the default. -/
def integerOr (s : Settings) (kind : IntegerKind) (key : String) (default : Int) :
    Except SettingsError Int :=
  match s.text? key with
  | some value => s.parsed key value kind.label kind.read?
  | none => .ok default

/-- The truth value under a key, or the default. -/
def flagOr (s : Settings) (key : String) (default : Bool) : Except SettingsError Bool :=
  match s.text? key with
  | some value => s.parsed key value "boolean" readFlag?
  | none => .ok default

end Settings

end ServiceHost
