import ServiceHost.Injection.Injector
import ServiceHost.Proofs.Host.Frame

/-!
# Injection — what a module gets from the registry

Filling slots changes nothing that a registry shows, so all slots of a module are filled from the
registry as it was at the first of them. A slot is given what is found under its capability,
nothing where an optional one is absent (`Gives`); **if no slot is refused, the memory of the
module holds exactly what its slots were given** (`fromRegistry_memory`), and otherwise the first slot
that is refused decides the answer (`fillSlots_answer`).
-/

set_option autoImplicit false

namespace ServiceHost

/-- Moving on writes no step: a refusal is a record in the process log. -/
theorem Calm.advance {β : Type} {view : Host → β} (q : Calm view) (next : Stage)
    (hosted : Hosted) : Frames view (hosted.advance next) := by
  unfold Hosted.advance
  split
  · exact Frames.pure _
  · exact (q.write _ rfl).bind fun _ => Frames.pure _

theorem Hosted.module_advance (next : Stage) (hosted : Hosted) (host : Host) :
    (hosted.advance next host).1.module = hosted.module := by
  unfold Hosted.advance
  split <;> rfl

theorem Hosted.name_advance (next : Stage) (hosted : Hosted) (host : Host) :
    (hosted.advance next host).1.name = hosted.name :=
  congrArg Module.name (module_advance next hosted host)

theorem Hosted.memory_advance (next : Stage) (hosted : Hosted) (host : Host) :
    (hosted.advance next host).1.memory = hosted.memory := by
  unfold Hosted.advance
  split <;> rfl

theorem Hosted.stage_advance {next : Stage} {hosted : Hosted}
    (h : hosted.stage.canAdvanceTo next = true) (host : Host) :
    (hosted.advance next host).1.stage = next := by
  unfold Hosted.advance
  rw [if_pos h]
  rfl

namespace Injection

/-- What a registry gives to a slot of a module: a service, or nothing where the capability is
absent and need not be there. -/
def Gives (registry : Registry) (module : Module) (point : InjectionPoint) :
    Option Service → Prop
  | some service => supply registry module point = .service service
  | none => supply registry module point = .absent

theorem find?_of_gives {registry : Registry} {module : Module} {point : InjectionPoint}
    {given : Option Service} (h : Gives registry module point given) :
    registry.find? point.capability = given := by
  unfold Gives supply at h
  cases hf : registry.find? point.capability with
  | none => cases given <;> cases hr : point.required <;> simp_all
  | some service =>
    -- Only a slot of the module's own kind that expects the type of the service is given it.
    by_cases ht : point.target = module.kind <;> by_cases hs : service.type = point.service <;>
      cases given <;> simp_all

/-- What a slot is given is what the registry resolves its capability to. -/
theorem resolve_of_gives {registry : Registry} {module : Module} {point : InjectionPoint}
    {given : Option Service} (h : Gives registry module point given) :
    registry.resolve point.capability point.required = .ok given := by
  have hf := find?_of_gives h
  unfold Registry.resolve
  rw [hf]
  cases given with
  | some service => rfl
  | none =>
    unfold Gives supply at h
    rw [hf] at h
    cases hr : point.required with
    | true => rw [hr] at h; simp at h
    | false => rfl

/-- A slot is refused or given something. -/
theorem exists_gives_or_refused (registry : Registry) (module : Module)
    (point : InjectionPoint) :
    (Gives registry module point (registry.find? point.capability)) ∨
      ∃ error, supply registry module point = .refused error := by
  unfold Gives
  cases hs : supply registry module point with
  | refused error => exact Or.inr ⟨error, rfl⟩
  | absent =>
    have hg : Gives registry module point none := hs
    rw [find?_of_gives hg]
    exact Or.inl rfl
  | service service =>
    have hg : Gives registry module point (some service) := hs
    rw [find?_of_gives hg]
    exact Or.inl rfl

theorem fillSlot_apply (hosted : Hosted) (point : InjectionPoint) (host : Host) :
    fillSlot hosted point host =
      match supply host.context.registry hosted.module point with
      | .refused error => ((hosted, .error error), host)
      | .absent => ((hosted, .ok ()), (Host.debug (hosted.name ++ ": optional capability " ++
          point.capability ++ " absent, " ++ point.field ++ " left unset") host).2)
      | .service service =>
        (({ hosted with memory := (point.field, service) :: hosted.memory }, .ok ()),
          (Host.effect (hosted.module.onFilled point service) host).2) := by
  unfold fillSlot
  show (match supply host.context.registry hosted.module point with
    | .refused error => _
    | .absent => _
    | .service service => _ : HostM (Hosted × Except InjectionError Unit)) host = _
  cases supply host.context.registry hosted.module point <;> rfl

theorem fillSlots_cons (hosted : Hosted) (point : InjectionPoint) (rest : List InjectionPoint)
    (host : Host) :
    fillSlots hosted (point :: rest) host =
      match supply host.context.registry hosted.module point with
      | .refused error => ((hosted, .error error), host)
      | .absent => fillSlots hosted rest (Host.debug (hosted.name ++ ": optional capability " ++
          point.capability ++ " absent, " ++ point.field ++ " left unset") host).2
      | .service service =>
        fillSlots { hosted with memory := (point.field, service) :: hosted.memory } rest
          (Host.effect (hosted.module.onFilled point service) host).2 := by
  rw [fillSlots, HostM.bind_apply, fillSlot_apply]
  cases supply host.context.registry hosted.module point <;> rfl

/-- Filling a slot reports and runs an effect, at most. -/
theorem frames_fillSlot {β : Type} {view : Host → β} (q : Calm view) (hosted : Hosted)
    (point : InjectionPoint) : Frames view (fillSlot hosted point) := by
  refine Frames.get.bind fun host => ?_
  split
  · exact Frames.pure _
  · exact (q.report _).bind fun _ => Frames.pure _
  · exact (q.effect _).bind fun _ => Frames.pure _

theorem frames_fillSlots {β : Type} {view : Host → β} (q : Calm view) :
    ∀ (points : List InjectionPoint) (hosted : Hosted), Frames view (fillSlots hosted points)
  | [], _ => Frames.pure _
  | point :: rest, hosted => by
    refine (frames_fillSlot q hosted point).bind fun answer => ?_
    rcases answer with ⟨hosted, error | _⟩
    · exact Frames.pure _
    · exact frames_fillSlots q rest hosted

/-- **Injection changes nothing that is registered.** -/
theorem frames_fromRegistry {β : Type} {view : Host → β} (q : Calm view) (hosted : Hosted) :
    Frames view (fromRegistry hosted) := by
  refine (frames_fillSlots q _ hosted).bind fun answer => ?_
  rcases answer with ⟨hosted, error | _⟩
  · exact Frames.pure _
  · exact (q.advance _ _).bind fun _ => Frames.pure _

/-- What slots have been given by a registry, the first of them first. -/
def given (registry : Registry) (points : List InjectionPoint) : Memory :=
  points.filterMap fun point => (registry.find? point.capability).map (point.field, ·)

/-- A slot that has its field to itself, or shares it with slots for the same capability, is found
with what the registry has. -/
theorem find?_given {registry : Registry} {points : List InjectionPoint} {memory : Memory}
    {point : InjectionPoint} {service : Service} (hpoint : point ∈ points)
    (hsame : ∀ other ∈ points, other.field = point.field → other.capability = point.capability)
    (hfind : registry.find? point.capability = some service) :
    Memory.find? ((given registry points).reverse ++ memory) point.field = some service := by
  have hgiven : (point.field, service) ∈ (given registry points).reverse := by
    refine List.mem_reverse.mpr (List.mem_filterMap.mpr ⟨point, hpoint, ?_⟩)
    rw [hfind]
    rfl
  have hsome : (List.find? (·.1 = point.field) (given registry points).reverse).isSome :=
    List.find?_isSome.mpr ⟨_, hgiven, decide_eq_true rfl⟩
  obtain ⟨⟨field, held⟩, hheld⟩ := Option.isSome_iff_exists.mp hsome
  -- Whatever is found first was given to a slot of that field, so from the same capability.
  have hfield : field = point.field := by
    simpa using List.find?_some hheld
  obtain ⟨other, hother, hmap⟩ :=
    List.mem_filterMap.mp (List.mem_reverse.mp (List.mem_of_find?_eq_some hheld))
  obtain ⟨found, hfound, heq⟩ := Option.map_eq_some_iff.mp hmap
  cases heq
  rw [hsame other hother hfield, hfind] at hfound
  cases hfound
  unfold Memory.find?
  rw [List.find?_append, hheld]
  rfl

/-- **Where no slot is refused, all are filled**, with what the registry holds. -/
theorem fillSlots_ok : ∀ (points : List InjectionPoint) (hosted : Hosted) (host : Host),
    (∀ point ∈ points, Gives host.context.registry hosted.module point
      (host.context.registry.find? point.capability)) →
    (fillSlots hosted points host).1 = ({ hosted with
      memory := (given host.context.registry points).reverse ++ hosted.memory }, .ok ())
  | [], _, _, _ => rfl
  | point :: rest, hosted, host, h => by
    have hpoint := h point List.mem_cons_self
    have hrest := fun other ho => h other (List.mem_cons_of_mem point ho)
    rw [fillSlots_cons]
    cases hf : host.context.registry.find? point.capability with
    | none =>
      rw [hf] at hpoint
      rw [show supply host.context.registry hosted.module point = .absent from hpoint]
      -- Neither a report nor a module's own hook changes the registry, so the slots behind are
      -- filled from the same one.
      refine (fillSlots_ok rest hosted (Host.debug _ host).2 hrest).trans ?_
      simp [given, hf, Host.debug]
    | some service =>
      rw [hf] at hpoint
      rw [show supply host.context.registry hosted.module point = .service service
        from hpoint]
      refine (fillSlots_ok rest { hosted with memory := (point.field, service) :: hosted.memory }
        (Host.effect _ host).2 hrest).trans ?_
      simp [given, hf]

/-- Why a slot is refused, if it is. -/
def refusal? (registry : Registry) (module : Module) (point : InjectionPoint) :
    Option InjectionError :=
  match supply registry module point with
  | .refused error => some error
  | _ => none

theorem refusal?_eq_some_iff {registry : Registry} {module : Module} {point : InjectionPoint}
    {error : InjectionError} :
    refusal? registry module point = some error ↔
      supply registry module point = .refused error := by
  unfold refusal?
  cases supply registry module point <;> simp

/-- A slot that is not refused is given what the registry holds. -/
theorem refusal?_eq_none_iff {registry : Registry} {module : Module} {point : InjectionPoint} :
    refusal? registry module point = none ↔
      Gives registry module point (registry.find? point.capability) := by
  constructor
  · intro h
    rcases exists_gives_or_refused registry module point with hg | ⟨error, hs⟩
    · exact hg
    · rw [refusal?_eq_some_iff.mpr hs] at h
      cases h
  · intro h
    unfold Gives at h
    unfold refusal?
    cases hf : registry.find? point.capability with
    | none =>
      rw [hf] at h
      rw [show supply registry module point = .absent from h]
    | some service =>
      rw [hf] at h
      rw [show supply registry module point = .service service from h]

/-- **The first slot that is refused decides the answer**, whatever is filled before it. -/
theorem fillSlots_answer : ∀ (points : List InjectionPoint) (hosted : Hosted) (host : Host),
    (fillSlots hosted points host).1.2 =
      match points.findSome? (refusal? host.context.registry hosted.module) with
      | some error => .error error
      | none => .ok ()
  | [], _, _ => rfl
  | point :: rest, hosted, host => by
    rw [fillSlots_cons, List.findSome?_cons]
    unfold refusal?
    cases supply host.context.registry hosted.module point with
    | refused error => rfl
    | absent => exact fillSlots_answer rest _ _
    | service service => exact fillSlots_answer rest _ _

theorem fillSlots_module : ∀ (points : List InjectionPoint) (hosted : Hosted) (host : Host),
    (fillSlots hosted points host).1.1.module = hosted.module
  | [], _, _ => rfl
  | point :: rest, hosted, host => by
    rw [fillSlots_cons]
    cases supply host.context.registry hosted.module point with
    | refused error => rfl
    | absent => exact fillSlots_module rest _ _
    | service service => exact fillSlots_module rest _ _

theorem fromRegistry_apply (hosted : Hosted) (host : Host) :
    fromRegistry hosted host =
      match fillSlots hosted hosted.module.points host with
      | ((hosted, .ok ()), host) =>
        (((hosted.advance .injected host).1, .ok ()), (hosted.advance .injected host).2)
      | ((hosted, .error error), host) => ((hosted, .error error), host) := by
  unfold fromRegistry
  rw [HostM.bind_apply]
  rcases fillSlots hosted hosted.module.points host with ⟨⟨hosted, error | _⟩, host⟩ <;> rfl

theorem fromRegistry_answer (hosted : Hosted) (host : Host) :
    (fromRegistry hosted host).1.2 =
      match hosted.module.points.findSome? (refusal? host.context.registry hosted.module) with
      | some error => .error error
      | none => .ok () := by
  rw [fromRegistry_apply, ← fillSlots_answer]
  rcases fillSlots hosted hosted.module.points host with ⟨⟨filled, error | _⟩, after⟩ <;> rfl

/-- Injection goes through exactly when every slot is given something. -/
theorem fromRegistry_ok_iff (hosted : Hosted) (host : Host) :
    (fromRegistry hosted host).1.2 = .ok () ↔
      ∀ point ∈ hosted.module.points, Gives host.context.registry hosted.module point
        (host.context.registry.find? point.capability) := by
  simp only [← refusal?_eq_none_iff]
  rw [fromRegistry_answer, ← List.findSome?_eq_none_iff]
  cases hosted.module.points.findSome? (refusal? host.context.registry hosted.module) <;> simp

/-- Where injection fails, a slot is refused with the error that is answered. -/
theorem exists_refused_of_fromRegistry {hosted : Hosted} {host : Host} {error : InjectionError}
    (h : (fromRegistry hosted host).1.2 = .error error) :
    ∃ point ∈ hosted.module.points,
      supply host.context.registry hosted.module point = .refused error := by
  rw [fromRegistry_answer] at h
  cases hf : hosted.module.points.findSome? (refusal? host.context.registry hosted.module) with
  | none => rw [hf] at h; cases h
  | some other =>
    rw [hf] at h
    cases h
    obtain ⟨point, hp, hr⟩ := List.exists_of_findSome?_eq_some hf
    exact ⟨point, hp, refusal?_eq_some_iff.mp hr⟩

/-- **What a module remembers after an injection that went through** is what the registry gave to
its slots, the last of them first. -/
theorem fromRegistry_memory {hosted : Hosted} {host : Host}
    (h : (fromRegistry hosted host).1.2 = .ok ()) :
    (fromRegistry hosted host).1.1.memory =
      (given host.context.registry hosted.module.points).reverse ++ hosted.memory := by
  have hok := fillSlots_ok hosted.module.points hosted host ((fromRegistry_ok_iff _ _).mp h)
  rw [fromRegistry_apply]
  rcases hc : fillSlots hosted hosted.module.points host with ⟨answer, after⟩
  rw [hc] at hok
  dsimp only at hok
  rw [hok]
  exact Hosted.memory_advance _ _ _

theorem fromRegistry_module (hosted : Hosted) (host : Host) :
    (fromRegistry hosted host).1.1.module = hosted.module := by
  have hm := fillSlots_module hosted.module.points hosted host
  rw [fromRegistry_apply]
  rcases hc : fillSlots hosted hosted.module.points host with ⟨⟨filled, error | _⟩, after⟩
  · rw [hc] at hm
    exact hm
  · rw [hc] at hm
    exact (Hosted.module_advance _ _ _).trans hm

theorem fromRegistry_stage {hosted : Hosted} {host : Host} (hs : hosted.stage = .discovered)
    (h : (fromRegistry hosted host).1.2 = .ok ()) :
    (fromRegistry hosted host).1.1.stage = .injected := by
  have hok := fillSlots_ok hosted.module.points hosted host ((fromRegistry_ok_iff _ _).mp h)
  rw [fromRegistry_apply]
  rcases hc : fillSlots hosted hosted.module.points host with ⟨answer, after⟩
  rw [hc] at hok
  dsimp only at hok
  rw [hok]
  refine Hosted.stage_advance ?_ _
  rw [hs]
  rfl

end Injection

end ServiceHost
