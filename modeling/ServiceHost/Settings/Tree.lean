import ServiceHost.Settings.Basic
import ServiceHost.Settings.Tagged
import ServiceHost.Toml.Document

/-!
# Layers of settings — trees laid over each other, and flattened

A source of settings is a tree. Laid over another tree it **wins key by key**: an object is laid
over an object member by member, and anything else replaces what was there. The settings of the
result are its leaves, each under the dotted path of its names.

Flat settings are a source as well: each key is cut at its dots into a tree, up to its first
empty segment. A key whose very first segment is empty is no tree, and refuses the source.
-/

set_option autoImplicit false

namespace ServiceHost

namespace Settings

/-! ## Laying trees over each other -/

mutual

/-- The tree `later` laid over `earlier`. -/
def overlay (earlier : Json) : (later : Json) → Json
  | .object later =>
    match earlier with
    | .object earlier => .object (overlayMembers earlier later)
    | _ => .object later
  | later => later

/-- The members of an object with those of a later one laid over them. -/
def overlayMembers (earlier : List (String × Json)) :
    (later : List (String × Json)) → List (String × Json)
  | [] => earlier
  | (name, value) :: rest =>
    let value := match Json.find? earlier name with
      | some old => overlay old value
      | none => value
    overlayMembers (Json.insert name value earlier) rest

end

/-- All layers in order, the last one on top. -/
def stack (layers : List Json) : Json :=
  layers.foldl overlay (.object [])

/-! ## Leaves -/

/-- The path of a member below `path`. -/
def memberPath (path name : String) : String :=
  if path = "" then name else path ++ "." ++ name

/-- The text of a leaf: a string is itself, null is empty, and the rest is JSON. -/
def leafText : Json → String
  | .string text => text
  | .null => ""
  | value => value.render

mutual

/-- The leaves of a tree in the order of its members, each under its dotted path. What stands at
an empty path has no key, and is left out. -/
def leaves (path : String) : Json → List (String × String)
  | .object members => memberLeaves path members
  | value => if path = "" then [] else [(path, leafText value)]

/-- The leaves of the members of an object. -/
def memberLeaves (path : String) : List (String × Json) → List (String × String)
  | [] => []
  | (name, value) :: rest => leaves (memberPath path name) value ++ memberLeaves path rest

end

def ofTree (tree : Json) : Settings :=
  ofList (leaves "" tree)

/-- The settings of several layers, the later ones winning. -/
def ofLayers (layers : List Json) : Settings :=
  ofTree (stack layers)

/-! ## Sources -/

/-- The tree that holds `value` under a key of these segments. The first empty segment ends the
key. -/
def nest (value : Json) : (segments : List String) → Json
  | [] => value
  | segment :: rest => if segment = "" then value else .object [(segment, nest value rest)]

/-- The tree of one flat setting; its key must start with a segment that is not empty. -/
def entryLayer (key : String) (value : Json) : Except SettingsError Json :=
  match nest value (Text.segments '.' key) with
  | .object members => .ok (.object members)
  | _ => .error (.source ("the key " ++ key ++ " starts with an empty segment"))

/-- Flat settings as a layer. -/
def layer (s : Settings) : Except SettingsError Json := do
  let entries ← s.entries.toList.mapM fun (key, value) => entryLayer key (.string value)
  return stack entries

/-- A settings file as a layer, its tagged values read. -/
def tomlLayer (text : String) : Except SettingsError Json :=
  match Toml.parse text with
  | .ok tree => readTaggedDocument tree
  | .error fault => .error (.source fault.message)

/-- The settings of the text of a settings file. -/
def ofToml (text : String) : Except SettingsError Settings :=
  (tomlLayer text).map ofTree

end Settings

end ServiceHost
