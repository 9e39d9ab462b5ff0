import ServiceHost.Json.Basic
import ServiceHost.Settings.Error

/-!
# Tagged values — tables that stand for one of their members

In a settings file a table may write its value down under a member of a reserved name
(`valueMember`); such a table **is** that value, and its other members say nothing. A second
reserved name (`idMember`) would tell where a value came from, which no file can know: a file
that uses it is refused. Both names are ordinary ones in the outermost table, which is the
document itself and stands for nothing else.
-/

set_option autoImplicit false

namespace ServiceHost

namespace Settings

/-- The member that a table stands for. -/
def valueMember : String := "___figment_value_value"

/-- The member that no table below the outermost one may have. -/
def idMember : String := "___figment_value_id"

/-- What a table stands for, its members being read. -/
def standsFor (members : List (String × Json)) : Json :=
  (Json.find? members valueMember).getD (.object members)

mutual

/-- A value with every tagged table in it, itself included, replaced by what it stands for. -/
def readTagged : Json → Except SettingsError Json
  | .object members => do
    let members ← readTaggedMembers members
    if (Json.find? members idMember).isSome then
      throw (.source ("a table has a member " ++ idMember))
    return standsFor members
  | .array items => do return .array (← readTaggedItems items)
  | value => .ok value

/-- The items of an array, each read. -/
def readTaggedItems : List Json → Except SettingsError (List Json)
  | [] => .ok []
  | item :: rest => do return (← readTagged item) :: (← readTaggedItems rest)

/-- The members of a table, the value of each read. -/
def readTaggedMembers : List (String × Json) → Except SettingsError (List (String × Json))
  | [] => .ok []
  | (name, value) :: rest => do
    return (name, ← readTagged value) :: (← readTaggedMembers rest)

end

/-- A document whose members are read; the document itself stays a table. -/
def readTaggedDocument : Json → Except SettingsError Json
  | .object members => do return .object (← readTaggedMembers members)
  | value => readTagged value

end Settings

end ServiceHost
