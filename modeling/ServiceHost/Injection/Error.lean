import ServiceHost.Text.Quoted

/-!
# Injection errors — why a slot of a module was not filled
-/

set_option autoImplicit false

namespace ServiceHost

/-- Why a slot of a module was not filled. -/
inductive InjectionError where
  | missingDependency (module capability field : String) (required : Bool)
  /-- The service under the capability is of another type than the slot. -/
  | serviceTypeMismatch (module capability expected actual : String)
  /-- The slot belongs to another kind of module. -/
  | targetMismatch (module field target : String)
deriving DecidableEq, Repr

def InjectionError.message : InjectionError → String
  | .missingDependency module capability field required =>
    "extension `" ++ module ++ "` is missing dependency " ++ capability ++ " for field \"" ++
      field ++ "\" (required=" ++ toString required ++ ")"
  | .serviceTypeMismatch module capability expected actual =>
    "extension `" ++ module ++ "` expects " ++ capability ++ " as " ++ expected ++
      ", registry holds " ++ actual
  | .targetMismatch module field target =>
    "injection point \"" ++ field ++ "\" of extension `" ++ module ++ "` targets " ++ target

end ServiceHost
