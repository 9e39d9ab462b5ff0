import ServiceHost.Json.Basic

/-!
# TOML tables — what a line may still define

A document is built line by line, and whether a line is allowed depends on **how the tables it
passes through came to be**: by their own header, on the way to another header, or by a dotted
key. A header may complete a table that stood only on the way to another header; a dotted key
may add to tables that dotted keys made, and to no table that has a header of its own.

The parts of a table under construction are `Node`s; a finished one is a JSON tree.
-/

set_option autoImplicit false

namespace ServiceHost.Toml

/-- How a table came to be. -/
inductive Origin where
  /-- By a header of its own, or as an item of a list of tables. -/
  | header
  /-- On the way to another header. -/
  | passed
  /-- By a dotted key. -/
  | dotted
deriving DecidableEq, Repr

/-- What stands under a key. -/
inductive Node where
  /-- A value, which no later line can add to. -/
  | value (tree : Json)
  | table (origin : Origin) (members : List (String × Node))
  /-- A list of tables: the finished ones, latest first, and the one that lines still add to. -/
  | tables (finished : List Json) (current : List (String × Node))

/-- The members of a table, ascending by name. -/
abbrev Members := List (String × Node)

namespace Node

mutual

def toJson : Node → Json
  | .value tree => tree
  | .table _ members => .object (membersToJson members)
  | .tables finished current => .array (finished.reverse ++ [.object (membersToJson current)])

def membersToJson : List (String × Node) → List (String × Json)
  | [] => []
  | (name, node) :: rest => (name, toJson node) :: membersToJson rest

end

end Node

/-- Changes the table that is reached along `path`, making the tables on the way that are not
there; `dotted` says that the path is part of a dotted key. Nothing when the path crosses a value
or, dotted, a table with a header. -/
def descend (dotted : Bool) (change : Origin → Members → Option Members) :
    (path : List String) → Origin → Members → Option Members
  | [], origin, members => change origin members
  | key :: path, _, members =>
    let made := if dotted then Origin.dotted else Origin.passed
    match Json.find? members key with
    | none => do
      let inner ← descend dotted change path made []
      return Json.insert key (.table made inner) members
    | some (.value _) => none
    | some (.tables finished current) => do
      let inner ← descend dotted change path .header current
      return Json.insert key (.tables finished inner) members
    | some (.table origin inner) =>
      if dotted ∧ origin = .header then none
      else do
        let inner ← descend dotted change path origin inner
        return Json.insert key (.table origin inner) members

/-- Puts a value under a dotted key. The last table on its way must have been made by a dotted
key, and the last segment must be free. -/
def assign (path : List String) (key : String) (value : Json) : Origin → Members → Option Members :=
  descend true (fun origin members =>
    if decide (origin = .dotted) = path.isEmpty then none
    else if (Json.find? members key).isSome then none
    else some (Json.insert key (.value value) members)) path

/-- Opens the table of a header: one that is new, or that stood only on the way to another. -/
def openTable (path : List String) (key : String) : Origin → Members → Option Members :=
  descend false (fun _ members =>
    match Json.find? members key with
    | none => some (Json.insert key (.table .header []) members)
    | some (.table .passed inner) => some (Json.insert key (.table .header inner) members)
    | some _ => none) path

/-- Opens the next table of a list of tables, which starts with its first header. -/
def openItem (path : List String) (key : String) : Origin → Members → Option Members :=
  descend false (fun _ members =>
    match Json.find? members key with
    | none => some (Json.insert key (.tables [] []) members)
    | some (.tables finished current) =>
      let done := Json.object (Node.membersToJson current)
      some (Json.insert key (.tables (done :: finished) []) members)
    | some _ => none) path

/-- Puts a value under a dotted key of the table that the latest header opened. -/
def assignUnder (header path : List String) (key : String) (value : Json) :
    Members → Option Members :=
  descend false (assign path key value) header .header

end ServiceHost.Toml
