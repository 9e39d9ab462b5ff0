import ServiceHost.Crash
import ServiceHost.Settings.Tree
import ServiceHost.Text.Bytes

/-!
# Settings from the environment — names mapped to keys, values read inline

A variable `EDC_WEB_PORT` is the setting `edc.web.port`. Its value is read as a small inline
language of truth values, numbers, quoted strings, lists and tables; **a value that is not
wholly a sentence of that language is the string itself**, untrimmed, so no variable is ever
refused. One thing can go wrong: a quoted text with an escape is cut by bytes, and a cut that
divides a character brings the process down.
-/

set_option autoImplicit false

namespace ServiceHost.Settings

namespace Inline

/-- Why nothing was read from the front of a value. -/
inductive Unread where
  /-- It is not what was to be read there. -/
  | refused
  | crashed (crash : Crash)

/-- Reads an `α` from the front of a value, or tells why not. -/
abbrev Reader (α : Type) := List Char → Except Unread (α × List Char)

/-- ASCII white space. -/
def isSpace (c : Char) : Bool :=
  c = ' ' || c = '\t' || c = '\n' || c = '\x0c' || c = '\r'

def skipSpace (cs : List Char) : List Char :=
  cs.dropWhile isSpace

/-- A character that ends a plain word. -/
def isSeparator (c : Char) : Bool :=
  c = ',' || c = '[' || c = ']' || c = '\x7b' || c = '\x7d'

/-- What a plain word stands for: a double if it has a point, an unsigned or a signed integer of
64 bits, and otherwise itself. -/
def wordValue (word : List Char) : Json :=
  let whole := [IntegerKind.unsignedLong, IntegerKind.long].findSome? fun kind =>
    (kind.spelled? word).filter fun n => kind.least ≤ n ∧ n ≤ kind.greatest
  let fallback := match whole with
    | some n => Json.integer n
    | none => .string (String.ofList word)
  if word.contains '.' then
    match Decimal.read? word with
    | some x => Json.ofReal x
    | none => fallback
  else fallback

/-- Reads the items after an opening bracket up to and with the closing one. A comma may stand
directly before the closing bracket. `fuel` bounds the number of items. -/
def readDelimited {α : Type} (item : Reader α) (close : Char) : (fuel : Nat) → Reader (List α)
  | 0, _ => .error .refused
  | fuel + 1, cs =>
    match cs with
    | [] => .error .refused
    | c :: rest =>
      if c = close then .ok ([], rest)
      else do
        let (value, rest) ← item (c :: rest)
        match rest with
        | ',' :: rest =>
          let (values, rest) ← readDelimited item close fuel rest
          return (value :: values, rest)
        | c :: rest => if c = close then return ([value], rest) else throw .refused
        | [] => throw .refused

/-- A quote follows that no backslash stands before. -/
def isClosed : List Char → Bool
  | [] | ['\\'] => false
  | '\\' :: _ :: rest => isClosed rest
  | '"' :: _ => true
  | _ :: rest => isClosed rest

/-- What is kept of the text before the first escape of a quoted text: as many bytes as it has
characters, so all of it if it is plain ASCII. -/
def keptBefore (before : List Char) : Except Unread (List Char) :=
  match Text.front? before.length before with
  | some kept => .ok kept
  | none => .error (.crashed (.dividedCharacter (String.ofList before) before.length))

/-- Reads a quoted text after its opening quote. The text before its first escape is cut
(`keptBefore`) as soon as the escape is reached, also where the escape is none. -/
def readQuoted : Reader String := fun cs => do
  let before := cs.takeWhile fun c => c ≠ '"' && c ≠ '\\'
  let text := cs.drop before.length
  if !isClosed cs || !before.all Toml.isText then throw .refused
  let kept ← match text with
    | '\\' :: _ => keptBefore before
    | _ => pure before
  match Toml.readBasic (text.length + 1) text with
  | some (text, rest) => return (String.ofList (kept ++ text), rest)
  | none => throw .refused

/-- Reads the name of a member of a table. -/
def readName : Reader String := fun cs =>
  match cs with
  | '"' :: rest => readQuoted rest
  | cs =>
    let name := cs.takeWhile Toml.isBareKeyChar
    if name.isEmpty then .error .refused
    else .ok (String.ofList name, cs.dropWhile Toml.isBareKeyChar)

def readMember (value : Reader Json) : Reader (String × Json) := fun cs => do
  let (name, rest) ← readName (skipSpace cs)
  match skipSpace rest with
  | '=' :: rest =>
    let (value, rest) ← value rest
    return ((name, value), rest)
  | _ => throw .refused

/-- Reads a value and the spaces around it; `fuel` bounds the nesting. -/
def readValue : (fuel : Nat) → Reader Json
  | 0, _ => .error .refused
  | fuel + 1, cs =>
    let cs := skipSpace cs
    let read : Except Unread (Json × List Char) :=
      if "true".toList.isPrefixOf cs then .ok (.bool true, cs.drop 4)
      else if "false".toList.isPrefixOf cs then .ok (.bool false, cs.drop 5)
      else match cs with
        | '\x7b' :: rest =>
          (readDelimited (readMember (readValue fuel)) '\x7d' (rest.length + 1) rest).map
            fun (members, rest) => (Json.ofMembers members, rest)
        | '[' :: rest =>
          (readDelimited (readValue fuel) ']' (rest.length + 1) rest).map
            fun (items, rest) => (.array items, rest)
        | '"' :: rest => (readQuoted rest).map fun (text, rest) => (.string text, rest)
        | '\'' :: rest =>
          match rest with
          | c :: '\'' :: rest => .ok (.string (String.ofList [c]), rest)
          | _ => .error .refused
        | cs =>
          let word := cs.takeWhile (!isSeparator ·)
          .ok (wordValue (Text.trimChars word), cs.dropWhile (!isSeparator ·))
    read.map fun (value, rest) => (value, skipSpace rest)

def value (text : String) : Except Crash Json :=
  match readValue (text.toList.length + 1) text.toList with
  | .ok (value, []) => .ok value
  | .error (.crashed crash) => .error crash
  | _ => .ok (.string text)

end Inline

/-- The letters that the name of a variable must start with, in any case. -/
def variableMark : String := "EDC_"

/-- The root of all settings from the environment. -/
def variableRoot : String := "edc"

/-- The key of a variable: its trimmed name after the mark, underscores read as dots, in lower
case below the root. A name of another start has no key, and neither has one that would leave a
segment of the key empty. -/
def variableKey? (name : String) : Option String :=
  let name := Text.trimChars name.toList
  if !(variableMark.toList.isPrefixOf (name.map Char.toUpper)) then none
  else
    let rest := (name.drop variableMark.toList.length).map fun c => if c = '_' then '.' else c
    let key := Text.trimChars (variableRoot.toList ++ '.' :: rest)
    if (Text.cut '.' key).any List.isEmpty then none
    else some (String.ofList (key.map Char.toLower))

/-- The tree of one variable, if it is a setting. -/
def variableLayer? (name text : String) : Except Crash (Option Json) :=
  match variableKey? name with
  | none => .ok none
  | some key => (Inline.value text).map fun value => some (nest value (Text.segments '.' key))

/-- The settings of the environment as a layer; the later of two variables of one key wins. -/
def environmentLayer (environment : List (String × String)) : Except Crash Json := do
  let layers ← environment.mapM fun (name, text) => variableLayer? name text
  return stack (layers.filterMap id)

end ServiceHost.Settings
