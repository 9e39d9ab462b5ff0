import ServiceHost.Proofs.Host.Injection
import ServiceHost.Proofs.Host.Journal

/-!
# Slots — which ones are filled, and where the filling ends

Whether a slot can be filled is decided by the registry and the module alone (`Fillable`), and so
is the error with which it is refused (`Refuses`). Filling one slot shows in the memory of the
module and in the world, and the registry is not changed by it, so **every slot is judged by the
registry that the injection began with**. An injection then comes to this: the slots in front of
the first one that is refused are visited in order, and no other slot is (`fillSlots_append`).
-/

set_option autoImplicit false

namespace ServiceHost

namespace Injection

/-- A slot can be filled, or may stay empty: what it requires is registered, and whatever is
registered under its capability is of its type, and the slot belongs to the module. -/
structure Fillable (registry : Registry) (module : Module) (point : InjectionPoint) : Prop where
  present : point.required = true → registry.has point.capability = true
  fits : ∀ service, registry.find? point.capability = some service →
    service.type = point.service ∧ point.target = module.kind

/-- The error with which a slot is refused. A slot of another kind of module is refused as such,
whatever the type of the service. -/
inductive Refuses (registry : Registry) (module : Module) (point : InjectionPoint) :
    InjectionError → Prop
  | missing (absent : registry.find? point.capability = none) (required : point.required = true) :
      Refuses registry module point
        (.missingDependency module.name point.capability point.field true)
  | foreign {service : Service} (found : registry.find? point.capability = some service)
      (other : point.target ≠ module.kind) :
      Refuses registry module point (.targetMismatch module.name point.field point.target)
  | mistyped {service : Service} (found : registry.find? point.capability = some service)
      (own : point.target = module.kind) (other : service.type ≠ point.service) :
      Refuses registry module point
        (.serviceTypeMismatch module.name point.capability point.service.name service.type.name)

/-- What a slot that is visited comes to: the service of its capability is given to the module, or
one debug message names the capability and the slot that stays empty. -/
def visit (registry : Registry) (module : Module) (host : Host) (point : InjectionPoint) : Host :=
  match registry.find? point.capability with
  | some service => (Host.effect (module.onFilled point service) host).2
  | none => (Host.debug (module.name ++ ": optional capability " ++ point.capability ++
      " absent, " ++ point.field ++ " left unset") host).2

/-- The host after slots were visited in order. -/
def visited (registry : Registry) (module : Module) (points : List InjectionPoint) (host : Host) :
    Host :=
  points.foldl (visit registry module) host

/-- A module that has been given what a registry has for its slots, the last of them first. -/
def filled (registry : Registry) (hosted : Hosted) (points : List InjectionPoint) : Hosted :=
  { hosted with memory := (given registry points).reverse ++ hosted.memory }

variable {registry : Registry} {module : Module} {point : InjectionPoint}
  {points rest : List InjectionPoint} {hosted : Hosted} {host : Host} {error : InjectionError}

/-! ## One slot -/

/-- **A slot can be filled exactly if the registry gives it something**, a service or nothing. -/
theorem fillable_iff_gives : Fillable registry module point ↔
    Gives registry module point (registry.find? point.capability) := by
  constructor
  · rintro ⟨hpresent, hfits⟩
    unfold Gives supply
    cases hfind : registry.find? point.capability with
    | none =>
      have hoptional : ¬ point.required = true := by
        intro hrequired
        have := hpresent hrequired
        rw [Registry.has, hfind] at this
        cases this
      simp [hoptional]
    | some service =>
      obtain ⟨htype, htarget⟩ := hfits service hfind
      simp [htype, htarget]
  · intro h
    cases hfind : registry.find? point.capability with
    | none =>
      refine ⟨fun hrequired => ?_, fun service hservice => by simp [hfind] at hservice⟩
      simp [Gives, supply, hfind, hrequired] at h
    | some service =>
      refine ⟨fun _ => by rw [Registry.has, hfind]; rfl, fun other hother => ?_⟩
      obtain rfl : service = other := Option.some.inj (hfind.symm.trans hother)
      simp only [Gives, supply, hfind] at h
      by_cases htarget : point.target = module.kind
      · by_cases htype : service.type = point.service
        · exact ⟨htype, htarget⟩
        · simp [htarget, htype] at h
      · simp [htarget] at h

theorem supply_eq_refused_iff :
    supply registry module point = .refused error ↔ Refuses registry module point error := by
  constructor
  · intro h
    unfold supply at h
    cases hfind : registry.find? point.capability with
    | none =>
      rw [hfind] at h
      cases hrequired : point.required with
      | false => simp [hrequired] at h
      | true =>
        obtain rfl : _ = error := by simpa [hrequired] using h
        exact .missing hfind hrequired
    | some service =>
      rw [hfind] at h
      by_cases htarget : point.target = module.kind
      · by_cases htype : service.type = point.service
        · simp [htarget, htype] at h
        · obtain rfl : _ = error := by simpa [htarget, htype] using h
          exact .mistyped hfind htarget htype
      · obtain rfl : _ = error := by simpa [htarget] using h
        exact .foreign hfind htarget
  · rintro (⟨hfind, hrequired⟩ | ⟨hfind, hother⟩ | ⟨hfind, hown, hother⟩)
    · simp [supply, hfind, hrequired]
    · simp [supply, hfind, hother]
    · simp [supply, hfind, hown, hother]

theorem Fillable.not_refuses (h : Fillable registry module point) :
    ¬ Refuses registry module point error := by
  intro hrefuses
  have hgives := fillable_iff_gives.mp h
  have hsupply := supply_eq_refused_iff.mpr hrefuses
  unfold Gives at hgives
  split at hgives <;> cases hgives.symm.trans hsupply

/-- **A slot that cannot be filled is refused.** -/
theorem exists_refuses (h : ¬ Fillable registry module point) :
    ∃ error, Refuses registry module point error := by
  obtain ⟨error, hsupply⟩ := (exists_gives_or_refused registry module point).resolve_left
    fun hgives => h (fillable_iff_gives.mpr hgives)
  exact ⟨error, supply_eq_refused_iff.mp hsupply⟩

/-! ## Slots in order -/

theorem context_visit (registry : Registry) (module : Module) (host : Host)
    (point : InjectionPoint) : (visit registry module host point).context = host.context := by
  unfold visit
  cases registry.find? point.capability <;> rfl

theorem context_visited (registry : Registry) (module : Module) (points : List InjectionPoint)
    (host : Host) : (visited registry module points host).context = host.context := by
  induction points generalizing host with
  | nil => rfl
  | cons point rest ih => exact (ih _).trans (context_visit registry module host point)

/-- **The slots in front are filled from the registry as it is**, and filling goes on behind
them. -/
theorem fillSlots_append (h : ∀ point ∈ points, Fillable host.context.registry hosted.module point)
    (rest : List InjectionPoint) :
    fillSlots hosted (points ++ rest) host =
      fillSlots (filled host.context.registry hosted points) rest
        (visited host.context.registry hosted.module points host) := by
  induction points generalizing hosted host with
  | nil => rfl
  | cons point front ih =>
    obtain ⟨hpoint, hfront⟩ := List.forall_mem_cons.mp h
    have hcontext := context_visit host.context.registry hosted.module host point
    have hgives := fillable_iff_gives.mp hpoint
    rw [List.cons_append, fillSlots_cons]
    cases hfind : host.context.registry.find? point.capability with
    | none =>
      have hvisit : visit host.context.registry hosted.module host point = (Host.debug
          (hosted.name ++ ": optional capability " ++ point.capability ++ " absent, " ++
            point.field ++ " left unset") host).2 := by
        rw [visit, hfind]
        rfl
      rw [hfind] at hgives
      rw [show supply host.context.registry hosted.module point = .absent from hgives]
      dsimp only
      rw [← hvisit, ih (by rwa [hcontext]), hcontext]
      simp [filled, given, hfind, visited]
    | some service =>
      have hvisit : visit host.context.registry hosted.module host point =
          (Host.effect (hosted.module.onFilled point service) host).2 := by
        rw [visit, hfind]
      rw [hfind] at hgives
      rw [show supply host.context.registry hosted.module point = .service service from hgives]
      dsimp only
      rw [← hvisit, ih (by rwa [hcontext]), hcontext]
      simp [filled, given, hfind, visited]

theorem fillSlots_of_fillable
    (h : ∀ point ∈ points, Fillable host.context.registry hosted.module point) :
    fillSlots hosted points host = ((filled host.context.registry hosted points, .ok ()),
      visited host.context.registry hosted.module points host) := by
  have := fillSlots_append h []
  rwa [List.append_nil] at this

theorem fillSlots_of_refuses
    (h : ∀ point ∈ points, Fillable host.context.registry hosted.module point)
    (hrefuses : Refuses host.context.registry hosted.module point error) :
    fillSlots hosted (points ++ point :: rest) host =
      ((filled host.context.registry hosted points, .error error),
        visited host.context.registry hosted.module points host) := by
  have hsupply : supply (visited host.context.registry hosted.module points host).context.registry
      (filled host.context.registry hosted points).module point = .refused error := by
    rw [context_visited]
    exact supply_eq_refused_iff.mpr hrefuses
  rw [fillSlots_append h, fillSlots_cons, hsupply]

/-- Slots can all be filled, or there is a first one that is refused. -/
theorem exists_first_refused (registry : Registry) (module : Module) (points : List InjectionPoint) :
    (∀ point ∈ points, Fillable registry module point) ∨
      ∃ front point rest error, points = front ++ point :: rest ∧
        (∀ earlier ∈ front, Fillable registry module earlier) ∧
        Refuses registry module point error := by
  induction points with
  | nil => exact .inl fun _ h => nomatch h
  | cons point rest ih =>
    by_cases hpoint : Fillable registry module point
    · rcases ih with hrest | ⟨front, refused, behind, error, rfl, hfront, hrefuses⟩
      · exact .inl (List.forall_mem_cons.mpr ⟨hpoint, hrest⟩)
      · exact .inr ⟨point :: front, refused, behind, error, rfl,
          List.forall_mem_cons.mpr ⟨hpoint, hfront⟩, hrefuses⟩
    · obtain ⟨error, hrefuses⟩ := exists_refuses hpoint
      exact .inr ⟨[], point, rest, error, rfl, fun _ h => (nomatch h), hrefuses⟩

/-! ## The journal -/

/-- What a slot that is visited comes to in the journal: what the module writes on its own when it
is given a service, or the debug message. -/
def visitEntries (registry : Registry) (module : Module) (monitor : Monitor)
    (point : InjectionPoint) (own : List Event) : List Event :=
  match registry.find? point.capability with
  | some _ => own
  | none => monitor.events [{ level := .debug
                              message := module.name ++ ": optional capability " ++
                                point.capability ++ " absent, " ++ point.field ++ " left unset" }]

/-- **The journal of an injection, slot by slot.** -/
theorem exists_journal_visited (registry : Registry) (module : Module)
    (points : List InjectionPoint) (host : Host) :
    ∃ owns : List (List Event), owns.length = points.length ∧
      (visited registry module points host).world.journal = host.world.journal ++
        (List.zipWith (visitEntries registry module host.context.monitor) points owns).flatten := by
  induction points generalizing host with
  | nil => exact ⟨[], rfl, by simp [visited]⟩
  | cons point rest ih =>
    obtain ⟨owns, hlength, hjournal⟩ := ih (visit registry module host point)
    obtain ⟨own, hown⟩ : ∃ own, (visit registry module host point).world.journal =
        host.world.journal ++ visitEntries registry module host.context.monitor point own := by
      unfold visit visitEntries
      cases registry.find? point.capability with
      | none => exact ⟨[], Host.journal_reporting [_] host⟩
      | some service => exact (module.onFilled point service).exists_journal_run host.world
    refine ⟨own :: owns, by simp [hlength], ?_⟩
    refine hjournal.trans ?_
    rw [hown, context_visit, List.zipWith_cons_cons, List.flatten_cons, List.append_assoc]

/-! ## The whole injection -/

theorem fromRegistry_of_fillable (hfresh : hosted.stage = .discovered)
    (h : ∀ point ∈ hosted.module.points, Fillable host.context.registry hosted.module point) :
    fromRegistry hosted host =
      (({ filled host.context.registry hosted hosted.module.points with stage := .injected },
        .ok ()), visited host.context.registry hosted.module hosted.module.points host) := by
  have hnext : (filled host.context.registry hosted hosted.module.points).stage.canAdvanceTo
      .injected = true := by
    show hosted.stage.canAdvanceTo .injected = true
    rw [hfresh]
    rfl
  rw [fromRegistry_apply, fillSlots_of_fillable h]
  dsimp only
  rw [Hosted.advance, if_pos hnext]
  rfl

theorem fromRegistry_of_refuses (hpoints : hosted.module.points = points ++ point :: rest)
    (h : ∀ earlier ∈ points, Fillable host.context.registry hosted.module earlier)
    (hrefuses : Refuses host.context.registry hosted.module point error) :
    fromRegistry hosted host = ((filled host.context.registry hosted points, .error error),
      visited host.context.registry hosted.module points host) := by
  rw [fromRegistry_apply, hpoints, fillSlots_of_refuses h hrefuses]

/-- What an injection from a registry comes to. -/
structure FillsSlots (hosted : Hosted) (host : Host) : Prop where
  /-- It goes through exactly if every slot can be filled or may stay empty. -/
  ok_iff : (fromRegistry hosted host).1.2 = .ok () ↔
    ∀ point ∈ hosted.module.points, Fillable host.context.registry hosted.module point
  /-- Then all slots are visited in order, and the module is injected. -/
  ok : (fromRegistry hosted host).1.2 = .ok () → fromRegistry hosted host =
    (({ filled host.context.registry hosted hosted.module.points with stage := .injected }, .ok ()),
      visited host.context.registry hosted.module hosted.module.points host)
  /-- Otherwise the first slot that is refused gives the error, the slots in front of it are
  visited in order, and the module stays where it was. -/
  error : ∀ error, (fromRegistry hosted host).1.2 = .error error →
    ∃ front point rest, hosted.module.points = front ++ point :: rest ∧
      (∀ earlier ∈ front, Fillable host.context.registry hosted.module earlier) ∧
      Refuses host.context.registry hosted.module point error ∧
      fromRegistry hosted host = ((filled host.context.registry hosted front, .error error),
        visited host.context.registry hosted.module front host)
  /-- Visiting slots adds to the journal what the module writes when it is given a service, and one
  debug message for each slot that stays empty. -/
  journal : ∀ points, ∃ owns : List (List Event), owns.length = points.length ∧
    (visited host.context.registry hosted.module points host).world.journal =
      host.world.journal ++ (List.zipWith
        (visitEntries host.context.registry hosted.module host.context.monitor) points owns).flatten
  /-- The context, and the registry in it, are as they were. -/
  context : (fromRegistry hosted host).2.context = host.context

/-- **An injection fills exactly the slots that can be filled**, up to the first one that is
refused. -/
theorem fromRegistry_fillsSlots (hosted : Hosted) (host : Host)
    (hfresh : hosted.stage = .discovered) : FillsSlots hosted host := by
  have hjournal := fun points =>
    exists_journal_visited host.context.registry hosted.module points host
  have hcontext := frames_fromRegistry calm_context hosted host
  rcases exists_first_refused host.context.registry hosted.module hosted.module.points with
    hall | ⟨front, point, rest, found, hpoints, hfront, hrefuses⟩
  · have hok := fromRegistry_of_fillable hfresh hall
    refine ⟨?_, fun _ => hok, ?_, hjournal, hcontext⟩
    · rw [hok]
      exact ⟨fun _ => hall, fun _ => rfl⟩
    · intro error herror
      rw [hok] at herror
      cases herror
  · have hrefused := fromRegistry_of_refuses hpoints hfront hrefuses
    refine ⟨?_, ?_, ?_, hjournal, hcontext⟩
    · rw [hrefused, hpoints]
      refine ⟨fun h => (nomatch h), fun hall => ?_⟩
      exact absurd hrefuses (hall point (by simp)).not_refuses
    · intro hok
      rw [hrefused] at hok
      cases hok
    · intro error herror
      rw [hrefused] at herror
      cases herror
      exact ⟨front, point, rest, hpoints, hfront, hrefuses, hrefused⟩

/-- A module with a slot that is filled, one that stays empty, and one for which there is a service
of another type. -/
def diary : Module where
  name := "diary"
  kind := "diary"
  points := [
    { field := "clock", capability := "test:clock", service := .long, target := "diary" },
    { field := "audit", capability := "test:audit", service := .text, required := false,
      target := "diary" },
    { field := "store", capability := "test:store", service := .byte, required := false,
      target := "diary" }]

/-- A host whose store is registered as a text. -/
def textStore : Host where
  context :=
    { registry := (({} : Registry).insert "test:clock" (.long 7)).insert "test:store" (.text "notes") }

theorem fillsSlots_diary : (Hosted.fresh diary).stage = .discovered ∧
    FillsSlots (Hosted.fresh diary) textStore ∧
    (fromRegistry (Hosted.fresh diary) textStore).1.2 =
      .error (.serviceTypeMismatch "diary" "test:store" "u8" "alloc::string::String") ∧
    (fromRegistry (Hosted.fresh diary) textStore).1.1.memory.map Prod.fst = ["clock"] ∧
    (fromRegistry (Hosted.fresh diary) textStore).1.1.stage = .discovered :=
  ⟨rfl, fromRegistry_fillsSlots _ _ rfl, rfl, by decide +kernel, by decide +kernel⟩

end Injection

end ServiceHost
