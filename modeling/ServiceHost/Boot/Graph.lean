import ServiceHost.Injection.Injector
import Std.Data.TreeSet

/-!
# Dependency graphs — who needs whom

All that modules provide is looked at first, and the position of each is **noted down under the
capabilities that it provides**. What they need, in a slot or on its own, is then looked up in that
table, and a module comes to depend on every other one that is found there, whether it must have
the capability or not. What it must have, and no module provides, the registry has to have as it
stands.

The first declaration that is wrong ends the drawing: a capability without the right form, or a
required one that nobody provides.
-/

set_option autoImplicit false

namespace ServiceHost

/-- Who depends on whom, by position. -/
structure Graph where
  names : List String
  /-- The positions that each module depends on, ascending. -/
  dependencies : List (List Nat)
deriving DecidableEq, Repr

/-- The positions of the modules that provide a capability, in the order in which they were noted
down. -/
abbrev Providers := Std.TreeMap String (List Nat)

/-- Notes down that the module at a position provides a capability. -/
def Providers.push (providers : Providers) (position : Nat) (capability : String) : Providers :=
  providers.insert capability (providers.getD capability [] ++ [position])

namespace Graph

/-- Checks a capability that a module declares. -/
def checkDeclared (module capability : String) : Except BootError Unit :=
  match Capability.validate capability with
  | .ok () => .ok ()
  | .error error => .error (.invalidCapability module error)

/-- Checks what the module at a position provides, and notes it down. -/
def provide (position : Nat) (hosted : Hosted) (providers : Providers) :
    Except BootError Providers :=
  hosted.module.provides.foldlM
    (fun providers capability => do
      checkDeclared hosted.name capability
      return providers.push position capability)
    providers

/-- All that modules provide. -/
def providersOf (modules : List Hosted) : Except BootError Providers :=
  modules.zipIdx.foldlM (fun providers (hosted, position) => provide position hosted providers) {}

/-- Checks what a module requires, and adds all that it depends on for it to its dependencies. It
does not depend on itself. -/
def depend (providers : Providers) (registry : Registry) (position : Nat) (module : String)
    (dependencies : Std.TreeSet Nat) (requirement : Requirement) :
    Except BootError (Std.TreeSet Nat) := do
  checkDeclared module requirement.capability
  match providers[requirement.capability]? with
  | some found => return dependencies.insertMany (found.filter (· ≠ position))
  | none =>
    if requirement.required && !registry.has requirement.capability then
      throw (.missingProvider module requirement.capability)
    else return dependencies

/-- What the module at a position depends on, for its slots and then on its own. -/
def dependenciesAt (providers : Providers) (registry : Registry) (position : Nat)
    (hosted : Hosted) : Except BootError (Std.TreeSet Nat) :=
  hosted.requirements.foldlM (depend providers registry position hosted.name) {}

/-- The graph of some modules, with a registry that may have what none of them provides. -/
def build (modules : List Hosted) (registry : Registry) : Except BootError Graph := do
  let providers ← providersOf modules
  let dependencies ← modules.zipIdx.mapM fun (hosted, position) =>
    dependenciesAt providers registry position hosted
  return {
    names := modules.map Hosted.name
    dependencies := dependencies.map Std.TreeSet.toList }

def size (graph : Graph) : Nat :=
  graph.names.length

/-- The name of the module at a position. -/
def nameAt (graph : Graph) (position : Nat) : String :=
  graph.names[position]?.getD ""

/-- The positions that the module at a position depends on. -/
def dependenciesOf (graph : Graph) (position : Nat) : List Nat :=
  graph.dependencies[position]?.getD []

/-- The positions that depend on the module at a position. -/
def dependentsOf (graph : Graph) (position : Nat) : List Nat :=
  (List.range graph.size).filter fun other => (graph.dependenciesOf other).contains position

/-- The names of the modules that the one at a position depends on. -/
def dependencyNames (graph : Graph) (position : Nat) : List String :=
  (graph.dependenciesOf position).map graph.nameAt

end Graph

end ServiceHost
