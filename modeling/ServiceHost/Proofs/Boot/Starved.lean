import ServiceHost.Proofs.Boot.Stock

/-!
# Starvation — the one injection that fails late

Before a boot runs any module it makes sure that everything required has a provider. It takes a
provider for one that comes first, and **a module never comes before itself**: where a module is
the only provider of what one of its own slots requires, the check is passed, no edge is drawn,
and the slot finds nothing. So it does where others provide the capability, but it is sealed
(`Starved`). Among modules that honour what they declare this is the only way in which an
injection fails, and it always does unless a setup takes too long before
(`injection_error_iff_starved`) — after other modules have been set up.
-/

set_option autoImplicit false

namespace ServiceHost

namespace Boot

/-- The slots of some modules. -/
def slotsOf (modules : List Module) : List InjectionPoint :=
  modules.flatMap Module.points

/-- A module must have something in a slot that nobody can have published by the time it is
injected: it is not registered when the boot begins, and no other module provides it, unless it is
pinned, so that no registration of it counts. -/
structure Starved (modules : List Module) (host : Host) (position : Nat) (module : Module)
    (point : InjectionPoint) : Prop where
  at_position : modules[position]? = some module
  mem_points : point ∈ module.points
  required : point.required = true
  absent : host.find? point.capability = none
  mem_pinned : ∀ other provider, modules[other]? = some provider → other ≠ position →
    point.capability ∈ provider.provides → point.capability ∈ host.context.pinned

variable {limits : Limits} {modules : List Module} {host : Host} {graph : Graph}
  {order : List Nat} {position : Nat} {module : Module} {point : InjectionPoint}

/-- Where the graph is drawn, a starved module provides itself what it lacks, or it is pinned. -/
theorem Starved.mem_provides_or_mem_pinned (h : Starved modules host position module point)
    (hb : Graph.build (modules.map Hosted.fresh) host.context.registry = .ok graph) :
    point.capability ∈ module.provides ∨ point.capability ∈ host.context.pinned := by
  have hmem : Hosted.fresh module ∈ modules.map Hosted.fresh :=
    List.mem_map_of_mem (List.mem_of_getElem? h.at_position)
  have hneed := Graph.mem_declarations.mpr
    ⟨Hosted.fresh module, hmem, Or.inr (Graph.mem_needed_of_point h.mem_points)⟩
  rcases Graph.served_of_build hb hneed h.required with ⟨provider, hp, hc⟩ | hhas
  · obtain ⟨found, hf, rfl⟩ := List.mem_map.mp hp
    obtain ⟨other, ho⟩ := List.mem_iff_getElem?.mp hf
    by_cases hne : other = position
    · rw [hne, h.at_position] at ho
      cases ho
      exact Or.inl hc
    · exact Or.inr (h.mem_pinned other found ho hne hc)
  · rw [Registry.has, show host.context.registry.find? point.capability = none from h.absent]
      at hhas
    cases hhas

/-- **A starved module is never injected**: all that is done before its turn leaves its capability
absent. -/
theorem Starved.inject_not_mem {done : List Act} {mid : State}
    (h : Starved modules host position module point)
    (hh : ∀ module ∈ modules, module.Honours (slotsOf modules))
    (hb : Graph.build (modules.map Hosted.fresh) host.context.registry = .ok graph)
    (ho : graph.order = .ok order) (hdone : done <+: script order)
    (hrun : Performs limits (State.start modules host) done mid) :
    .inject position ∉ done := by
  intro hin
  have hnodup := nodup_of_ordered hb ho
  have hlt := (List.getElem?_eq_some_iff.mp h.at_position).1
  obtain ⟨front, back, rfl⟩ := List.append_of_mem ((mem_of_ordered hb ho).mpr hlt)
  obtain ⟨before, after, rfl⟩ := List.append_of_mem hin
  obtain ⟨rest, hrest⟩ := hdone
  have hcut : script (front ++ position :: back) =
      before ++ .inject position :: (after ++ rest) := by
    rw [← hrest, List.append_assoc, List.cons_append]
  obtain rfl := eq_flatMap_pair_of_inject hnodup hcut
  obtain ⟨turn, hfront, hbehind⟩ := hrun.split
  have hnotin : position ∉ front := fun hf =>
    (List.nodup_append.mp hnodup).2.2 position hf position List.mem_cons_self rfl
  have habsent : turn.host.find? point.capability = none := by
    by_cases hp : point.capability ∈ host.context.pinned
    -- A sealed capability stays sealed.
    · exact ((hfront.sealed_iff (State.honoured_start host hh)).mpr ⟨hp, h.absent⟩).2
    -- Until its turn, only modules in front of it are set up, and none of them provides it.
    · refine (hfront.find?_eq ?_).trans h.absent
      intro other hother provider hat
      rw [State.moduleAt_start] at hat
      have hne : other ≠ position := by
        rintro rfl
        exact hnotin (mem_flatMap_pair.mp hother)
      exact ⟨(hh provider (List.mem_of_getElem? hat)).keeps, fun hc =>
        hp (h.mem_pinned other provider hat hne hc)⟩
  cases hbehind with
  | cons htake _ =>
    obtain ⟨_, _, _, hgives⟩ :=
      htake.memory_of_inject (hfront.getElem?_fresh hnotin h.at_position)
    have hresolve := Injection.resolve_of_gives (hgives point h.mem_points)
    rw [Registry.resolve, show turn.host.context.registry.find? point.capability = none
      from habsent, h.required] at hresolve
    cases hresolve

/-- A slot that finds only what suits it is refused for one reason. -/
theorem eq_missingDependency_of_refused {registry : Registry} {error : InjectionError}
    (htarget : point.target = module.kind)
    (htype : ∀ service, registry.find? point.capability = some service →
      service.type = point.service)
    (h : Injection.supply registry module point = .refused error) :
    registry.find? point.capability = none ∧ point.required = true ∧
      error = .missingDependency module.name point.capability point.field true := by
  unfold Injection.supply at h
  cases hf : registry.find? point.capability with
  | none =>
    rw [hf] at h
    cases hr : point.required with
    | false =>
      rw [hr] at h
      cases h
    | true =>
      rw [hr] at h
      cases h
      exact ⟨rfl, rfl, rfl⟩
  | some service =>
    rw [hf] at h
    simp [htarget, htype service hf] at h

/-- A setup of a module that honours what it declares fails only by taking too long. -/
theorem Fails.eq_timeout_of_setUp {state next : State} {error : BootError}
    {points : List InjectionPoint} (h : Fails limits state (.setUp position) error next)
    (hh : state.Honoured points) (hs : state.host.Suits points) :
    ∃ name elapsed limit, error = .timeout .setUp name elapsed limit := by
  obtain ⟨hosted, hm, he, _, _⟩ := h
  have hhonours := hh position hosted.module (congrArg (Option.map Hosted.module) hm)
  have henter : (state.host.enter (.call .setUp) hosted.name).Suits points :=
    hs.of_registrations_eq rfl
  obtain ⟨memory, hok⟩ := hhonours.setUp_ok hosted.memory _ henter
  have he : setUpError? limits hosted state.host = some error := he
  unfold setUpError? at he
  rw [timed_apply] at he
  dsimp only at he
  rw [hok] at he
  unfold callError? at he
  dsimp only at he
  split at he
  · cases he
    exact ⟨_, _, _, rfl⟩
  · cases he

/-- **An injection that fails is that of a starved module**: a provider in front would have
published what it misses, and what the host had from the beginning would still be there. -/
theorem starved_of_fails {before after : List Act} {mid final : State} {error : BootError}
    (hb : Graph.build (modules.map Hosted.fresh) host.context.registry = .ok graph)
    (ho : graph.order = .ok order) (hh : ∀ module ∈ modules, module.Honours (slotsOf modules))
    (hs : host.Suits (slotsOf modules)) (hcut : script order = before ++ .inject position :: after)
    (hrun : Performs limits (State.start modules host) before mid)
    (hf : Fails limits mid (.inject position) error final) :
    ∃ module point, Starved modules host position module point ∧
      error = .injection (.missingDependency module.name point.capability point.field true) := by
  have hnodup := nodup_of_ordered hb ho
  have hhstart := State.honoured_start host hh
  have hsmid := hrun.suits hhstart hs
  obtain ⟨hosted, cause, hat, rfl, point, hp, hrefused⟩ := hf.refused_of_inject
  have hm : modules[position]? = some hosted.module := by
    rw [← State.moduleAt_start modules host, ← hrun.moduleAt_eq]
    exact congrArg (Option.map Hosted.module) hat
  have hmem := List.mem_of_getElem? hm
  have hslot : point ∈ slotsOf modules := List.mem_flatMap.mpr ⟨hosted.module, hmem, hp⟩
  obtain ⟨hnone, hrequired, rfl⟩ := eq_missingDependency_of_refused
    ((hh hosted.module hmem).target_eq point hp) (hsmid.type_eq point hslot) hrefused
  have hlost : ¬ (mid.host.find? point.capability).isSome = true := by
    rw [show mid.host.find? point.capability = none from hnone]
    exact Bool.false_ne_true
  refine ⟨hosted.module, point, ⟨hm, hp, hrequired, ?_, ?_⟩, rfl⟩
  · cases hfirst : host.find? point.capability with
    | none => rfl
    | some service =>
      refine absurd (hrun.isSome_find? hhstart hs ?_) hlost
      rw [show (State.start modules host).host.find? point.capability = some service from hfirst]
      rfl
  · intro other provider hother hne hc
    have hlt := (List.getElem?_eq_some_iff.mp hm).1
    obtain ⟨front, back, rfl⟩ := List.append_of_mem ((mem_of_ordered hb ho).mpr hlt)
    obtain rfl := eq_flatMap_pair_of_inject hnodup hcut
    obtain ⟨_, hrespects⟩ := Graph.perm_and_respects_of_order (Graph.wellFormed_of_build hb) ho
    -- Another provider would be a dependency, and so have been set up by now.
    have hfront := hrespects front position back rfl other
      (dependsOn_of_point hb hm hother hne hp hc)
    by_contra hpinned
    refine hlost (hrun.isSome_of_setUp hhstart hs ?_ (mem_flatMap_pair.mpr hfront) hc ?_)
    · rw [State.moduleAt_start]
      exact hother
    · exact fun hsealed => hpinned hsealed.1

/-- A start fails with an error of its own. -/
theorem Fails.ne_injection_of_start {state next : State} {error : BootError}
    (h : Fails limits state (.start position) error next) (cause : InjectionError) :
    error ≠ .injection cause := by
  rintro rfl
  obtain ⟨hosted, _, he, _, _⟩ := h
  have he : startError? limits hosted state.host = some (.injection cause) := he
  unfold startError? at he
  rcases hc : (timed limits .start hosted.name
    (Host.effect (hosted.module.start hosted.memory)) state.host).1 with ⟨failure | memory, elapsed⟩
  · rw [hc] at he
    cases he
  · rw [hc] at he
    unfold callError? at he
    dsimp only at he
    split at he
    · cases he
    · cases he

/-- A boot that fails in an injection misses what a starved module lacks. -/
theorem exists_starved_of_outcome {cause : InjectionError}
    (hb : Graph.build (modules.map Hosted.fresh) host.context.registry = .ok graph)
    (ho : graph.order = .ok order) (hh : ∀ module ∈ modules, module.Honours (slotsOf modules))
    (hs : host.Suits (slotsOf modules))
    (h : (outcome limits modules host).1 = .error (.injection cause)) :
    ∃ position module point, Starved modules host position module point ∧
      cause = .missingDependency module.name point.capability point.field true := by
  have hhstart := State.honoured_start host hh
  cases enacts_boot hb ho limits with
  | all _ eq _ => cases (congrArg Prod.fst eq).symm.trans h
  | @stopped before after act error mid final cut run fails eq =>
    obtain rfl : error = .injection cause :=
      Except.error.inj ((congrArg Prod.fst eq).symm.trans h)
    cases act with
    | inject position =>
      obtain ⟨module, point, hstarved, he⟩ := starved_of_fails hb ho hh hs cut run fails
      exact ⟨position, module, point, hstarved, BootError.injection.inj he⟩
    | setUp position =>
      obtain ⟨_, _, _, he⟩ := fails.eq_timeout_of_setUp (run.honoured hhstart)
        (run.suits hhstart hs)
      cases he
    | start position => exact absurd rfl (fails.ne_injection_of_start cause)

/-- A boot that fails, but not in a setup that takes too long, fails in an injection if a module
is starved. -/
theorem Starved.exists_injection_error
    (h : Starved modules host position module point)
    (hb : Graph.build (modules.map Hosted.fresh) host.context.registry = .ok graph)
    (ho : graph.order = .ok order) (hh : ∀ module ∈ modules, module.Honours (slotsOf modules))
    (hs : host.Suits (slotsOf modules))
    (htime : ∀ name elapsed limit,
      (outcome limits modules host).1 ≠ .error (.timeout .setUp name elapsed limit)) :
    ∃ cause, (outcome limits modules host).1 = .error (.injection cause) := by
  have hhstart := State.honoured_start host hh
  have hin := (mem_of_ordered hb ho).mpr (List.getElem?_eq_some_iff.mp h.at_position).1
  cases enacts_boot hb ho limits with
  | all run _ _ =>
    -- A boot that goes through has injected every module, the starved one too.
    refine absurd ?_ (h.inject_not_mem hh hb ho List.prefix_rfl run)
    exact List.mem_append_left _ (List.mem_flatMap.mpr ⟨position, hin, List.mem_cons_self⟩)
  | @stopped before after act error mid final cut run fails eq =>
    have hanswer : (outcome limits modules host).1 = .error error := congrArg Prod.fst eq
    cases act with
    | inject other =>
      obtain ⟨_, cause, _, rfl, _⟩ := fails.refused_of_inject
      exact ⟨cause, hanswer⟩
    | setUp other =>
      obtain ⟨name, elapsed, limit, rfl⟩ := fails.eq_timeout_of_setUp (run.honoured hhstart)
        (run.suits hhstart hs)
      exact absurd hanswer (htime name elapsed limit)
    | start other =>
      have hbefore : before <+: script order := ⟨.start other :: after, cut.symm⟩
      exact absurd (inject_mem_of_start cut hin) (h.inject_not_mem hh hb ho hbefore run)

/-- **When an injection fails.** Among modules that honour what they declare, on a host that suits
them, a boot that has an order fails in an injection exactly if some module is starved and no
setup takes too long before its turn. What it answers then is the dependency that a starved module
misses: one that only the module itself provides, or one that is pinned. -/
theorem injection_error_iff_starved (limits : Limits)
    (hb : Graph.build (modules.map Hosted.fresh) host.context.registry = .ok graph)
    (ho : graph.order = .ok order) (hh : ∀ module ∈ modules, module.Honours (slotsOf modules))
    (hs : host.Suits (slotsOf modules)) :
    ((∃ cause, (outcome limits modules host).1 = .error (.injection cause)) ↔
      (∃ position module point, Starved modules host position module point) ∧
      ∀ name elapsed limit,
        (outcome limits modules host).1 ≠ .error (.timeout .setUp name elapsed limit)) ∧
    ∀ cause, (outcome limits modules host).1 = .error (.injection cause) →
      ∃ position module point, Starved modules host position module point ∧
        (point.capability ∈ module.provides ∨ point.capability ∈ host.context.pinned) ∧
        cause = .missingDependency module.name point.capability point.field true := by
  refine ⟨⟨?_, ?_⟩, ?_⟩
  · rintro ⟨cause, hcause⟩
    obtain ⟨position, module, point, hstarved, _⟩ := exists_starved_of_outcome hb ho hh hs hcause
    refine ⟨⟨position, module, point, hstarved⟩, ?_⟩
    intro name elapsed limit ht
    cases hcause.symm.trans ht
  · rintro ⟨⟨position, module, point, hstarved⟩, htime⟩
    exact hstarved.exists_injection_error hb ho hh hs htime
  · intro cause hcause
    obtain ⟨position, module, point, hstarved, he⟩ :=
      exists_starved_of_outcome hb ho hh hs hcause
    exact ⟨position, module, point, hstarved, hstarved.mem_provides_or_mem_pinned hb, he⟩

/-- A module with a slot for what another one provides. -/
def servedStore : List Module :=
  [ .publisher "store" "test:store" (.byte 2),
    { name := "web", kind := "web"
      points :=
        [{ field := "store", capability := "test:store", service := .byte, target := "web" }] } ]

theorem suits_default (points : List InjectionPoint) : ({} : Host).Suits points where
  type_eq := by
    intro point _ service hs
    rw [Host.find?, Registry.find?_empty] at hs
    cases hs

theorem servedStore_injected :
    (∀ module ∈ servedStore, module.Honours (slotsOf servedStore)) ∧
    ({} : Host).Suits (slotsOf servedStore) ∧
    ¬ ∃ cause, (outcome {} servedStore {}).1 = .error (.injection cause) := by
  have hh : ∀ module ∈ servedStore, module.Honours (slotsOf servedStore) := by
    intro module hm
    rcases List.mem_cons.mp hm with rfl | hm
    · apply Module.honours_publisher (fun _ hp => absurd hp List.not_mem_nil)
      intro point hp _
      rw [List.mem_singleton.mp hp]
      rfl
    · rw [List.mem_singleton.mp hm]
      refine Module.honours_of_pure ?_ rfl fun _ => rfl
      intro point hp
      rw [List.mem_singleton.mp hp]
  have hs := suits_default (slotsOf servedStore)
  refine ⟨hh, hs, ?_⟩
  intro hcause
  have hb : Graph.build (servedStore.map Hosted.fresh) ({} : Host).context.registry =
      .ok ⟨["store", "web"], [[], [0]]⟩ := by decide +kernel
  have ho : Graph.order ⟨["store", "web"], [[], [0]]⟩ = .ok [0, 1] := by rfl
  obtain ⟨⟨position, module, point, hstarved⟩, _⟩ :=
    (injection_error_iff_starved {} hb ho hh hs).1.mp hcause
  rcases position with _ | _ | position
  · cases hstarved.at_position
    exact absurd hstarved.mem_points List.not_mem_nil
  · cases hstarved.at_position
    have hpinned := hstarved.mem_pinned 0 _ rfl (by decide)
    rw [List.mem_singleton.mp hstarved.mem_points] at hpinned
    exact absurd (hpinned List.mem_cons_self) List.not_mem_nil
  · cases hstarved.at_position

/-- A module that provides what a slot of its own requires, behind one that has nothing to do with
it. -/
def selfServed : List Module :=
  [ .publisher "audit" "test:audit" (.byte 1),
    .publisher "store" "test:store" (.byte 2)
      [{ field := "store", capability := "test:store", service := .byte, target := "store" }] ]

/-- All honour what they declare and there is an order, and still the boot fails in an injection,
when the first module is set up already. -/
theorem selfServed_fails_late :
    (∀ module ∈ selfServed, module.Honours (slotsOf selfServed)) ∧
    ({} : Host).Suits (slotsOf selfServed) ∧
    (∃ graph, Graph.build (selfServed.map Hosted.fresh) ({} : Host).context.registry = .ok graph ∧
      graph.order = .ok [0, 1]) ∧
    (outcome {} selfServed {}).1 =
      .error (.injection (.missingDependency "store" "test:store" "store" true)) ∧
    (outcome {} selfServed {}).2.steps =
      [(.inject, "audit"), (.call .setUp, "audit"), (.inject, "store")] := by
  refine ⟨?_, suits_default _, ?_, ?_, ?_⟩
  · intro module hm
    rcases List.mem_cons.mp hm with rfl | hm
    · apply Module.honours_publisher (fun _ hp => absurd hp List.not_mem_nil)
      intro point hp hc
      rw [List.mem_singleton.mp hp] at hc
      simp at hc
    · rw [List.mem_singleton.mp hm]
      refine Module.honours_publisher ?_ ?_
      · intro point hp
        rw [List.mem_singleton.mp hp]
      · intro point hp _
        rw [List.mem_singleton.mp hp]
        rfl
  · have hb : Graph.build (selfServed.map Hosted.fresh) ({} : Host).context.registry =
        .ok ⟨["audit", "store"], [[], []]⟩ := by decide +kernel
    exact ⟨_, hb, rfl⟩
  · exact (map_eq_error_iff (f := fun _ => ())).mp (by decide +kernel)
  · decide +kernel

end Boot

end ServiceHost
