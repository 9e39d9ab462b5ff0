import ServiceHost.Discovery.Extension

/-!
# Locators — where extensions are looked up

A locator answers two questions about a point: which extensions there are, and which one there
is. A manifest answers from its entries, ordered by name. A **layered** locator holds instances
of its own over another locator: asked for a point it hands out all it holds of that point, and
never holds them again, whatever the answer to the question is.

Looking up changes a layered locator, so both questions answer with the locator that is left.
-/

set_option autoImplicit false

namespace ServiceHost

structure ManifestEntry where
  name : String
  extension : Extension

inductive Locator where
  | manifest (entries : List ManifestEntry)
  /-- Instances over another locator. -/
  | layered (registered : List Implementor) (delegate : Locator)
  /-- Answers both questions by functions of the point and of whether it is required. -/
  | answering
      (all : ExtensionPoint → Bool → Except DiscoveryError (List Implementor))
      (one : ExtensionPoint → Bool → Except DiscoveryError (Option Implementor))

instance : Inhabited Locator := ⟨.manifest []⟩

namespace Locator

/-- The entries of a point, by name and then by position. -/
def entriesOf (point : ExtensionPoint) (entries : List ManifestEntry) : List Implementor :=
  ((entries.filter (·.extension.point = point)).mergeSort (·.name ≤ ·.name)).map fun entry =>
    { origin := "manifest:" ++ entry.name, extension := entry.extension }

/-- Splits instances into those of a point and the others. -/
def takePoint (point : ExtensionPoint) (registered : List Implementor) :
    List Implementor × List Implementor :=
  registered.partition (·.point = point)

/-- All implementors of a point; none is an error only if one is required. -/
def implementors (point : ExtensionPoint) :
    (required : Bool) → Locator → Except DiscoveryError (List Implementor) × Locator
  | required, .manifest entries =>
    let found := entriesOf point entries
    (if found.isEmpty && required then .error (.notFound point) else .ok found,
      .manifest entries)
  | required, .layered registered delegate =>
    let (own, others) := takePoint point registered
    let (answer, delegate) := implementors point (required && own.isEmpty) delegate
    (answer.map (own ++ ·), .layered others delegate)
  | required, .answering all one => (all point required, .answering all one)

/-- The one implementor of a point, if there is one. More than one is always an error. -/
def singleton (point : ExtensionPoint) :
    (required : Bool) → Locator → Except DiscoveryError (Option Implementor) × Locator
  | required, .manifest entries =>
    let answer := match entriesOf point entries with
      | [] => if required then .error (.notFound point) else .ok none
      | [implementor] => .ok (some implementor)
      | several => .error (.multiple point (several.map Implementor.origin))
    (answer, .manifest entries)
  | required, .layered registered delegate =>
    let (own, others) := takePoint point registered
    match own with
    | [] =>
      let (answer, delegate) := singleton point required delegate
      (answer, .layered others delegate)
    | [implementor] =>
      let (answer, delegate) := singleton point false delegate
      let answer := match answer with
        | .error error => .error error
        | .ok none => .ok (some implementor)
        | .ok (some other) => .error (.multiple point [implementor.origin, other.origin])
      (answer, .layered others delegate)
    | several =>
      (.error (.multiple point (several.map Implementor.origin)), .layered others delegate)
  | required, .answering all one => (one point required, .answering all one)

/-- Adds an instance to a layered locator; any other is left as it is. -/
def register (implementor : Implementor) : Locator → Locator
  | .layered registered delegate => .layered (registered ++ [implementor]) delegate
  | locator => locator

/-- A locator that answers with the same items whatever it is asked. -/
def constant (items : List Implementor) : Locator :=
  .answering (fun _ _ => .ok items) (fun _ _ => .ok items.head?)

/-! ## Typed questions -/

/-- The extension of an implementor as one of the point that was asked for. -/
def typed {α : Type} (point : ExtensionPoint) (cast? : Extension → Option α)
    (implementor : Implementor) : Except DiscoveryError α :=
  match cast? implementor.extension with
  | some typed => .ok typed
  | none => .error (.typeMismatch point implementor.point implementor.origin)

/-- All extensions of a point; the first that is of another point is an error. -/
def loadAll {α : Type} (point : ExtensionPoint) (cast? : Extension → Option α) (required : Bool)
    (locator : Locator) : Except DiscoveryError (List α) × Locator :=
  let (answer, locator) := locator.implementors point required
  (answer.bind fun found => found.mapM (typed point cast?), locator)

/-- The one extension of a point, if there is one. -/
def loadOne {α : Type} (point : ExtensionPoint) (cast? : Extension → Option α) (required : Bool)
    (locator : Locator) : Except DiscoveryError (Option α) × Locator :=
  let (answer, locator) := locator.singleton point required
  let typed := answer.bind fun
    | none => .ok none
    | some implementor => (typed point cast? implementor).map some
  (typed, locator)

/-- The extension as itself, if it is one of the point. -/
def asPoint? (point : ExtensionPoint) (extension : Extension) : Option Extension :=
  if extension.point = point then some extension else none

end Locator

end ServiceHost
