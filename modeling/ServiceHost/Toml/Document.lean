import ServiceHost.Toml.Scalar
import ServiceHost.Toml.Table

/-!
# TOML documents — values, lines, and the tree they build

A document is a list of lines: blank ones, comments, headers and settings. It is read as one
tree with ascending members, or refused with the line where the fault is.
-/

set_option autoImplicit false

namespace ServiceHost.Toml

/-- Reads `item`s with commas between them up to and with `]`, a trailing comma allowed; spaces,
line ends and comments may stand anywhere. `fuel` bounds the number of items. -/
def readItems (item : Reader Json) : (fuel : Nat) → Reader (List Json)
  | 0, _ => none
  | fuel + 1, cs => do
    match ← skipLines (cs.length + 1) cs with
    | ']' :: rest => return ([], rest)
    | cs =>
      let (value, rest) ← item cs
      match ← skipLines (rest.length + 1) rest with
      | ',' :: rest =>
        let (items, rest) ← readItems item fuel rest
        return (value :: items, rest)
      | ']' :: rest => return ([value], rest)
      | _ => none

/-- Reads a key, an equals sign and a value. -/
def readSetting (value : Reader Json) : Reader ((List String × String) × Json) := fun cs => do
  let (key, rest) ← readKey cs
  let (value, rest) ← value (skipSpace (← takeChar '=' rest))
  return ((key, value), rest)

/-- Reads the settings of an inline table with commas between them up to and with the closing
brace, all on one line; `fuel` bounds their number. -/
def readInlineSettings (value : Reader Json) : (fuel : Nat) → Members → Reader Members
  | 0, _, _ => none
  | fuel + 1, members, cs => do
    let (((path, key), value'), rest) ← readSetting value cs
    let members ← assign path key value' .header members
    match skipSpace rest with
    | ',' :: rest => readInlineSettings value fuel members rest
    | '\x7d' :: rest => return (members, rest)
    | _ => none

/-- Reads a value; at most `levels` brackets may be open at once. -/
def readValue : (levels : Nat) → Reader Json
  | levels, cs =>
    match cs with
    | [] => none
    | '[' :: rest =>
      match levels with
      | 0 => none
      | levels + 1 => (readItems (readValue levels) (rest.length + 1) rest).map
          fun (items, rest) => (.array items, rest)
    | '\x7b' :: rest =>
      match levels with
      | 0 => none
      | levels + 1 =>
        match skipSpace rest with
        | '\x7d' :: rest => some (.object [], rest)
        | rest => (readInlineSettings (readValue levels) (rest.length + 1) [] rest).map
            fun (members, rest) => (.object (Node.membersToJson members), rest)
    | '"' :: _ | '\'' :: _ => (readString cs).map fun (text, rest) => (.string text, rest)
    | 't' :: _ => (takeWord "true" cs).map (.bool true, ·)
    | 'f' :: _ => (takeWord "false" cs).map (.bool false, ·)
    | _ => readNumberOrMoment cs

inductive Line where
  /-- A blank line or a comment. -/
  | empty
  /-- A header `[key]`. -/
  | table (path : List String) (key : String)
  /-- A header `[[key]]`. -/
  | item (path : List String) (key : String)
  /-- A setting `key = value`. -/
  | setting (path : List String) (key : String) (value : Json)

/-- Reads one line from its first lexeme on. -/
def readLine (cs : List Char) : Option (Line × List Char) :=
  match cs with
  | [] => some (.empty, [])
  | '#' :: _ | '\n' :: _ | '\r' :: _ => (finishLine cs).map (.empty, ·)
  | '[' :: '[' :: rest => do
    let ((path, key), rest) ← readKey rest
    return (.item path key, ← finishLine (← takeChar ']' (← takeChar ']' rest)))
  | '[' :: rest => do
    let ((path, key), rest) ← readKey rest
    return (.table path key, ← finishLine (← takeChar ']' rest))
  | cs => do
    let (((path, key), value), rest) ← readSetting (readValue nestingLimit) cs
    return (.setting path key value, ← finishLine rest)

/-- Why a document was refused, and the line where. -/
inductive Fault where
  | unreadable (line : Nat)
  | redefined (line : Nat) (key : String)
deriving DecidableEq, Repr

def Fault.message : Fault → String
  | .unreadable line => s!"line {line} is not a table header or a setting"
  | .redefined line key => s!"line {line} defines {key} again"

/-- The number of the line that starts at `rest` in `text`. -/
def lineNumber (text rest : List Char) : Nat :=
  text.count '\n' - rest.count '\n' + 1

/-- Reads the lines that are left into the tree; `header` is the path of the table that the
latest header opened, and `fuel` bounds the number of lines. -/
def readLinesInto (text : List Char) :
    (fuel : Nat) → (header : List String) → Members → List Char → Except Fault Members
  | 0, _, members, _ => .ok members
  | fuel + 1, header, members, cs =>
    let cs := skipSpace cs
    if cs.isEmpty then .ok members
    else match readLine cs with
      | none => .error (.unreadable (lineNumber text cs))
      | some (line, rest) =>
        let redefined (key : String) : Except Fault Members :=
          .error (.redefined (lineNumber text cs) key)
        match line with
        | .empty => readLinesInto text fuel header members rest
        | .table path key =>
          match openTable path key .header members with
          | none => redefined key
          | some members => readLinesInto text fuel (path ++ [key]) members rest
        | .item path key =>
          match openItem path key .header members with
          | none => redefined key
          | some members => readLinesInto text fuel (path ++ [key]) members rest
        | .setting path key value =>
          match assignUnder header path key value members with
          | none => redefined key
          | some members => readLinesInto text fuel header members rest

/-- The tree of a document. A byte order mark in front is no part of it. -/
def parse (text : String) : Except Fault Json :=
  let cs := match text.toList with
    | '\ufeff' :: rest => rest
    | cs => cs
  (readLinesInto cs (cs.length + 1) [] [] cs).map fun members =>
    .object (Node.membersToJson members)

end ServiceHost.Toml
