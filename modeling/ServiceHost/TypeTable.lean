import Std.Data.TreeMap

/-!
# Type tables — logical names of payload types

Modules agree on what a logical name stands for by binding it to a type. **A binding never
changes**: binding a name to its type again does nothing, and binding it to another is refused.
-/

set_option autoImplicit false

namespace ServiceHost

inductive TypeTableError where
  | duplicate (name bound : String)
deriving DecidableEq, Repr

def TypeTableError.message : TypeTableError → String
  | .duplicate name bound => "type name `" ++ name ++ "` already bound to " ++ bound

/-- Types under logical names. -/
structure TypeTable where
  bindings : Std.TreeMap String String := ∅

instance : Inhabited TypeTable := ⟨{}⟩

namespace TypeTable

/-- The table with `name` bound to a type. -/
def bind (table : TypeTable) (name type : String) : Except TypeTableError TypeTable :=
  match table.bindings[name]? with
  | some bound => if bound = type then .ok table else .error (.duplicate name bound)
  | none => .ok { bindings := table.bindings.insert name type }

/-- All bindings, ascending by name. -/
def toList (table : TypeTable) : List (String × String) :=
  table.bindings.toList

end TypeTable

end ServiceHost
