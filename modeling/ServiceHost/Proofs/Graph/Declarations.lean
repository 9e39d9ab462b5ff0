import ServiceHost.Boot.Graph
import ServiceHost.Proofs.Passes

/-!
# Declarations — all that modules declare, and what is wrong with it

Modules declare what they provide, and what they need in their slots and on their own. In a list of
all of it, in the order in which it is looked at (`declarations`), each declaration can be **judged
by itself**, against the modules and the registry as they stand: it has the right form or not, and
what must be there is served or not (`checkDeclaration_eq_error_iff`). Which providers a graph has
noted down by then, and for whom, is not part of the judgement.
-/

set_option autoImplicit false

namespace ServiceHost

namespace Graph

/-- A capability as a module declares it. -/
structure Declaration where
  module : String
  capability : String
  /-- The module cannot do without a provider. -/
  required : Bool
deriving DecidableEq, Repr

/-- What a module provides; that needs no other provider. -/
def provided (hosted : Hosted) : List Declaration :=
  hosted.module.provides.map fun capability => ⟨hosted.name, capability, false⟩

/-- What a module needs, in its slots and then on its own. -/
def needed (hosted : Hosted) : List Declaration :=
  hosted.module.points.map (fun point => ⟨hosted.name, point.capability, point.required⟩) ++
    hosted.module.requires.map fun requirement =>
      ⟨hosted.name, requirement.capability, requirement.required⟩

theorem needed_eq (hosted : Hosted) :
    needed hosted = hosted.requirements.map fun requirement =>
      ⟨hosted.name, requirement.capability, requirement.required⟩ := by
  simp [needed, Hosted.requirements]

theorem mem_needed_of_point {hosted : Hosted} {point : InjectionPoint}
    (hp : point ∈ hosted.module.points) :
    (⟨hosted.name, point.capability, point.required⟩ : Declaration) ∈ needed hosted :=
  List.mem_append_left _ (List.mem_map_of_mem hp)

/-- All that modules declare, in the order in which it is looked at. -/
def declarations (modules : List Hosted) : List Declaration :=
  modules.flatMap provided ++ modules.flatMap needed

theorem mem_declarations {modules : List Hosted} {declaration : Declaration} :
    declaration ∈ declarations modules ↔
      ∃ hosted ∈ modules, declaration ∈ provided hosted ∨ declaration ∈ needed hosted := by
  simp only [declarations, List.mem_append, List.mem_flatMap, and_or_left, exists_or]

/-- A module provides the capability, or the registry has it. -/
def Served (modules : List Hosted) (registry : Registry) (capability : String) : Prop :=
  (∃ provider ∈ modules, capability ∈ provider.module.provides) ∨ registry.has capability = true

/-- What is wrong with a declaration. -/
inductive Offends (modules : List Hosted) (registry : Registry) (declaration : Declaration) :
    BootError → Prop
  | malformed {cause : CapabilityError}
      (hv : Capability.validate declaration.capability = .error cause) :
      Offends modules registry declaration (.invalidCapability declaration.module cause)
  | unserved (hv : Capability.validate declaration.capability = .ok ())
      (hr : declaration.required = true)
      (hs : ¬ Served modules registry declaration.capability) :
      Offends modules registry declaration
        (.missingProvider declaration.module declaration.capability)

/-- The error is that of the first declaration that offends. -/
def FirstOffence (modules : List Hosted) (registry : Registry) (error : BootError) : Prop :=
  ∃ before declaration after, declarations modules = before ++ declaration :: after ∧
    (∀ earlier ∈ before, ∀ other, ¬ Offends modules registry earlier other) ∧
    Offends modules registry declaration error

/-- A module needs something that the other one provides. -/
def Needs (hosted provider : Hosted) : Prop :=
  ∃ declaration ∈ needed hosted, declaration.capability ∈ provider.module.provides

/-- A module needs a provider of any capability that one of its slots asks for. -/
theorem needs_of_point {hosted provider : Hosted} {point : InjectionPoint}
    (hp : point ∈ hosted.module.points) (hc : point.capability ∈ provider.module.provides) :
    Needs hosted provider :=
  ⟨_, mem_needed_of_point hp, hc⟩

/-! ## The judgement -/

section Judged

variable {modules : List Hosted} {registry : Registry} {declaration : Declaration}
  {error : BootError}

instance (capability : String) : Decidable (Served modules registry capability) :=
  inferInstanceAs (Decidable (_ ∨ _))

/-- Judges a declaration by itself. -/
def checkDeclaration (modules : List Hosted) (registry : Registry) (declaration : Declaration) :
    Except BootError Unit := do
  checkDeclared declaration.module declaration.capability
  if declaration.required = true ∧ ¬ Served modules registry declaration.capability then
    throw (.missingProvider declaration.module declaration.capability)

theorem checkDeclaration_eq :
    checkDeclaration modules registry declaration =
      match Capability.validate declaration.capability with
      | .error cause => .error (.invalidCapability declaration.module cause)
      | .ok () =>
        if declaration.required = true ∧ ¬ Served modules registry declaration.capability then
          .error (.missingProvider declaration.module declaration.capability)
        else .ok () := by
  unfold checkDeclaration checkDeclared
  cases Capability.validate declaration.capability with
  | error cause => rfl
  | ok _ => rfl

/-- A check refuses what offends, with the error of the offence. -/
theorem checkDeclaration_eq_error_iff :
    checkDeclaration modules registry declaration = .error error ↔
      Offends modules registry declaration error := by
  rw [checkDeclaration_eq]
  cases hv : Capability.validate declaration.capability with
  | error cause =>
    constructor
    · intro h
      exact Except.error.inj h ▸ .malformed hv
    · intro ho
      cases ho with
      | malformed hv' => rw [Except.error.inj (hv.symm.trans hv')]
      | unserved hv' => cases hv.symm.trans hv'
  | ok _ =>
    dsimp only
    split
    · rename_i hc
      constructor
      · intro h
        exact Except.error.inj h ▸ .unserved hv hc.1 hc.2
      · intro ho
        cases ho with
        | malformed hv' => cases hv.symm.trans hv'
        | unserved => rfl
    · rename_i hc
      constructor
      · intro h
        cases h
      · intro ho
        cases ho with
        | malformed hv' => cases hv.symm.trans hv'
        | unserved _ hr hs => exact absurd ⟨hr, hs⟩ hc

theorem checkDeclaration_eq_ok_iff :
    checkDeclaration modules registry declaration = .ok () ↔
      Capability.validate declaration.capability = .ok () ∧
        (declaration.required = true → Served modules registry declaration.capability) := by
  rw [checkDeclaration_eq]
  cases Capability.validate declaration.capability with
  | error cause => simp
  | ok _ => simp

theorem checkDeclaration_eq_ok_iff_not_offends :
    checkDeclaration modules registry declaration = .ok () ↔
      ∀ error, ¬ Offends modules registry declaration error := by
  simp only [← checkDeclaration_eq_error_iff]
  cases checkDeclaration modules registry declaration with
  | error found => simp
  | ok _ => simp

/-- What a module provides needs to have the right form, and no more. -/
theorem checkDeclaration_provided (hosted : Hosted) (capability : String) :
    checkDeclaration modules registry ⟨hosted.name, capability, false⟩ =
      checkDeclared hosted.name capability := by
  unfold checkDeclaration
  cases checkDeclared hosted.name capability with
  | error error => rfl
  | ok _ => rfl

end Judged

end Graph

end ServiceHost
