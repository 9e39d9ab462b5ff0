import ServiceHost.Proofs.Host.Frame
import Mathlib.Data.List.Induction

/-!
# Registrations — the last pin wins, and else the last of all

Services are registered plainly or pinned, in any order. What a host has under a capability is then
the service of its **last pinned registration**, and if there is none the one of its last (`held?`).
A plain registration that is skipped, or that replaces a service, is worth one warning, and no other
registration is worth any (`warning?`). A new context is no exception: it is an empty one with two
plain registrations.
-/

set_option autoImplicit false

namespace ServiceHost

/-- A service is registered under a capability. -/
inductive Registration where
  | plain (capability : String) (service : Service)
  | pinned (capability : String) (service : Service)

namespace Registration

def perform : Registration → HostM Unit
  | .plain capability service => Host.register capability service
  | .pinned capability service => Host.pin capability service

/-- The service that is registered under the capability. -/
def under? (capability : String) : Registration → Option Service
  | .plain touched service | .pinned touched service =>
    if touched = capability then some service else none

/-- The service that is pinned under the capability. -/
def pinnedUnder? (capability : String) : Registration → Option Service
  | .plain _ _ => none
  | .pinned touched service => if touched = capability then some service else none

/-- The service that was registered last under a capability. -/
def last? (capability : String) (registrations : List Registration) : Option Service :=
  (registrations.filterMap (under? capability)).getLast?

/-- The service that was pinned last under a capability. -/
def lastPinned? (capability : String) (registrations : List Registration) : Option Service :=
  (registrations.filterMap (pinnedUnder? capability)).getLast?

/-- What is held under a capability after registrations: what was pinned last, or else what was
registered last. -/
def held? (capability : String) (registrations : List Registration) : Option Service :=
  (lastPinned? capability registrations).or (last? capability registrations)

/-- The warning that a registration is worth after others: a plain one that a pin keeps out, or
that replaces a service. -/
def warning? (before : List Registration) : Registration → Option String
  | .pinned _ _ => none
  | .plain capability service =>
    if (lastPinned? capability before).isSome then
      some ("capability " ++ capability ++ " is pinned, registration of " ++ service.type.name ++
        " skipped")
    else (last? capability before).map fun previous =>
      "capability " ++ capability ++ " re-registered: " ++ previous.type.name ++ " replaced by " ++
        service.type.name

/-- What a new context has registered. -/
def built (typeTable : Ticket TypeTable) (monitor : Monitor) : List Registration :=
  [.plain Capability.monitor (.monitor monitor), .plain Capability.typeTable (.typeTable typeTable)]

section Last

variable (capability touched : String) (service : Service) (before : List Registration)

theorem last?_append (registration : Registration) :
    last? capability (before ++ [registration]) =
      (registration.under? capability).or (last? capability before) := by
  unfold last?
  rw [List.filterMap_append, List.getLast?_append, List.filterMap_cons]
  cases registration.under? capability <;> rfl

theorem lastPinned?_append (registration : Registration) :
    lastPinned? capability (before ++ [registration]) =
      (registration.pinnedUnder? capability).or (lastPinned? capability before) := by
  unfold lastPinned?
  rw [List.filterMap_append, List.getLast?_append, List.filterMap_cons]
  cases registration.pinnedUnder? capability <;> rfl

end Last

end Registration

/-- The world after one warning, or none. -/
def World.warned (monitor : Monitor) (message? : Option String) (world : World) : World :=
  message?.elim world fun message => world.report monitor { level := .warning, message }

namespace Host

open Registration

/-- The host after registrations. -/
def registering (registrations : List Registration) (host : Host) : Host :=
  registrations.foldl (fun host registration => (registration.perform host).2) host

theorem registering_append (registrations more : List Registration) (host : Host) :
    host.registering (registrations ++ more) = (host.registering registrations).registering more :=
  List.foldl_append

theorem registering_concat (registrations : List Registration) (registration : Registration)
    (host : Host) :
    host.registering (registrations ++ [registration]) =
      (registration.perform (host.registering registrations)).2 :=
  registering_append registrations [registration] host

theorem mem_pinned_registering (registrations : List Registration) (host : Host)
    (capability : String) :
    capability ∈ (host.registering registrations).context.pinned ↔
      (lastPinned? capability registrations).isSome ∨ capability ∈ host.context.pinned := by
  induction registrations using List.reverseRecOn with
  | nil => simp [registering, lastPinned?]
  | append_singleton before registration ih =>
    rw [registering_concat, lastPinned?_append, Option.isSome_or, Bool.or_eq_true, or_assoc, ← ih]
    cases registration with
    | plain touched service =>
      show capability ∈ (Host.register touched service _).2.context.pinned ↔ _
      rw [pinned_register]
      simp [pinnedUnder?]
    | pinned touched service =>
      show capability ∈ touched :: (host.registering before).context.pinned ↔ _
      by_cases h : touched = capability
      · simp [pinnedUnder?, h]
      · simp [pinnedUnder?, h, Ne.symm h]

/-- **What a host has after registrations**: what was pinned last, if anything was; and else what
was there, where it was pinned, or what was registered last. -/
theorem find?_registering (registrations : List Registration) (host : Host) (capability : String) :
    (host.registering registrations).find? capability =
      (lastPinned? capability registrations).or
        (if capability ∈ host.context.pinned then host.find? capability
          else (last? capability registrations).or (host.find? capability)) := by
  induction registrations using List.reverseRecOn with
  | nil => simp [registering, lastPinned?, last?]
  | append_singleton before registration ih =>
    rw [registering_concat, lastPinned?_append, last?_append]
    cases registration with
    | pinned touched service =>
      show (Host.pin touched service _).2.find? capability = _
      rw [find?_pin, ih]
      by_cases h : touched = capability <;> simp [pinnedUnder?, under?, h]
    | plain touched service =>
      show (Host.register touched service _).2.find? capability = _
      simp only [find?_register, mem_pinned_registering, ih]
      -- What is pinned by now, here or before, keeps the registration out.
      by_cases h : touched = capability
      · subst h
        cases lastPinned? touched before with
        | some pin => simp [pinnedUnder?]
        | none => by_cases hp : touched ∈ host.context.pinned <;> simp [pinnedUnder?, under?, hp]
      · simp [pinnedUnder?, under?, h]

theorem monitor_registering (registrations : List Registration) (host : Host) :
    (host.registering registrations).context.monitor = host.context.monitor := by
  induction registrations using List.reverseRecOn with
  | nil => rfl
  | append_singleton before registration ih =>
    rw [registering_concat, ← ih]
    cases registration with
    | pinned touched service => rfl
    | plain touched service =>
      exact (calm_context.comp (·.monitor)).register (fun _ => rfl) _

/-! ## New contexts -/

/-- A host with a new context. -/
def new (world : World) (typeTable : Ticket TypeTable) (monitor : Monitor) (locator : Locator) :
    Host where
  world := world
  context := Context.new typeTable monitor locator

section New

variable (world : World) (typeTable : Ticket TypeTable) (monitor : Monitor) (locator : Locator)

/-- A new context is an empty one with two registrations, and neither of them is worth a warning. -/
theorem registering_built :
    ({ world, context := { typeTable, monitor, locator } } : Host).registering
      (built typeTable monitor) = new world typeTable monitor locator := rfl

variable (registrations : List Registration)

theorem registering_new :
    (new world typeTable monitor locator).registering registrations =
      ({ world, context := { typeTable, monitor, locator } } : Host).registering
        (built typeTable monitor ++ registrations) := by
  rw [registering_append, registering_built]

/-- **In a new context the last pin wins, and else the last registration of all.** -/
theorem find?_registering_new (capability : String) :
    ((new world typeTable monitor locator).registering registrations).find? capability =
      held? capability (built typeTable monitor ++ registrations) := by
  have hnone : Host.find? capability { world, context := { typeTable, monitor, locator } } = none :=
    Registry.find?_empty capability
  rw [registering_new, find?_registering, if_neg List.not_mem_nil, hnone, Option.or_none]
  rfl

/-- **A registration comes to its warning**, if it is worth one, and to nothing else in the world. -/
theorem world_perform_registering_new (registration : Registration) :
    (registration.perform ((new world typeTable monitor locator).registering registrations)).2.world =
      ((new world typeTable monitor locator).registering registrations).world.warned monitor
        (warning? (built typeTable monitor ++ registrations) registration) := by
  have hfind := find?_registering_new world typeTable monitor locator registrations
  have hpinned := mem_pinned_registering (built typeTable monitor ++ registrations)
    { world, context := { typeTable, monitor, locator } }
  have hmonitor := monitor_registering registrations (new world typeTable monitor locator)
  rw [← registering_new] at hpinned
  generalize (new world typeTable monitor locator).registering registrations = host
    at hfind hpinned hmonitor ⊢
  generalize built typeTable monitor ++ registrations = before at hfind hpinned ⊢
  cases registration with
  | pinned capability service => rfl
  | plain capability service =>
    have hheld : host.context.registry.find? capability = held? capability before :=
      hfind capability
    have hpin := hpinned capability
    show (Host.register capability service host).2.world = _
    rw [register_apply, hheld, warning?, held?]
    cases hlast : lastPinned? capability before with
    | some pin =>
      rw [hlast] at hpin
      rw [if_pos (hpin.mpr (.inl rfl))]
      show host.world.report host.context.monitor _ = _
      rw [hmonitor]
      rfl
    | none =>
      rw [hlast] at hpin
      rw [if_neg (by simp [hpin]), Option.none_or]
      cases last? capability before with
      | none => rfl
      | some previous =>
        show host.world.report host.context.monitor _ = _
        rw [hmonitor]
        rfl

end New

end Host

end ServiceHost
