import ServiceHost.Proofs.Boot.Trace

/-!
# Writers — who may still publish a capability, and when

A module that keeps to its declarations changes nothing under a capability that it does not
provide (`Module.KeepsToDeclared`), so what is found under a capability is settled once all its
providers are set up. And **whoever has a slot for a capability stands behind all its providers**,
itself apart: from the injection of a module on, no other module of the boot provides what one of
its slots asks for (`not_mem_provides_of_behind`).
-/

set_option autoImplicit false

namespace ServiceHost

/-- Setting the module up changes nothing that is registered, but under what it provides. -/
def Module.KeepsToDeclared (module : Module) : Prop :=
  ∀ (memory : Memory) (host : Host), ∀ capability ∉ module.provides,
    (Host.contextEffect (module.setUp memory) host).2.find? capability = host.find? capability

/-- A module that only ever touches what it provides keeps to its declarations. -/
theorem Module.keepsToDeclared_of_touches {module : Module}
    (h : ∀ memory, (module.setUp memory).AllOps fun op =>
      ∀ capability, op.Touches capability → capability ∈ module.provides) :
    module.KeepsToDeclared := by
  intro memory host capability hc
  refine frames_contextEffect ?_ (h memory) host
  intro op hop
  exact frames_find?_perform fun ht => hc (hop capability ht)

/-- A module that provides one capability, and publishes a service under it when it is set up. -/
def Module.publisher (name capability : String) (service : Service)
    (points : List InjectionPoint := []) : Module where
  name := name
  kind := name
  provides := [capability]
  points := points
  setUp memory := do
    ContextEffect.register capability service
    return .ok memory

theorem Module.keepsToDeclared_publisher (name capability : String) (service : Service)
    (points : List InjectionPoint) :
    (publisher name capability service points).KeepsToDeclared := by
  refine keepsToDeclared_of_touches fun memory => ⟨?_, fun _ => trivial⟩
  rintro _ rfl
  exact List.mem_singleton_self _

/-- A module that does nothing while it is set up keeps to its declarations, whatever they are. -/
theorem Module.keepsToDeclared_of_pure {module : Module}
    (h : ∀ memory, module.setUp memory = pure (.ok memory)) : module.KeepsToDeclared := by
  refine keepsToDeclared_of_touches fun memory => ?_
  rw [h memory]
  exact trivial

namespace Boot

variable {limits : Limits} {state final : State} {acts : List Act} {act : Act}
  {hosted : Hosted} {capability : String}

/-- An act changes what is found under a capability only by what its module may publish. -/
theorem Act.find?_call
    (h : ∀ position, act = .setUp position →
      hosted.module.KeepsToDeclared ∧ capability ∉ hosted.module.provides) (host : Host) :
    ((act.call limits hosted).on host).2.find? capability = host.find? capability := by
  rw [act.view_call (quiet_find? capability).calm]
  cases act with
  | setUp position =>
    obtain ⟨hk, hc⟩ := h position rfl
    exact hk _ _ capability hc
  | _ => rfl

/-- **What is found under a capability stays** as long as no provider of it is set up. -/
theorem Performs.find?_eq (h : Performs limits state acts final)
    (hw : ∀ position, .setUp position ∈ acts → ∀ module, state.moduleAt position = some module →
      module.KeepsToDeclared ∧ capability ∉ module.provides) :
    final.host.find? capability = state.host.find? capability := by
  refine h.host_invariant (p := (·.find? capability = state.host.find? capability)) ?_ rfl
  intro act ha hosted hm host hh
  refine (Act.find?_call ?_ host).trans hh
  rintro position rfl
  exact hw position ha _ hm

/-! ## Positions in a script -/

theorem mem_flatMap_pair {order : List Nat} {position : Nat} :
    Act.setUp position ∈ order.flatMap pair ↔ position ∈ order := by
  simp [pair]

/-- What is still set up from the injection of a module on: the module and those behind it. -/
theorem mem_behind {back order : List Nat} {position other : Nat} :
    Act.setUp other ∈ Act.inject position :: Act.setUp position ::
      (back.flatMap pair ++ order.map .start) ↔ other = position ∨ other ∈ back := by
  simp [pair]

/-- The script from the injection of a module on. -/
theorem script_append_cons (front back : List Nat) (position : Nat) :
    script (front ++ position :: back) = front.flatMap pair ++ .inject position ::
      .setUp position :: (back.flatMap pair ++ (front ++ position :: back).map .start) := by
  simp [script, pair]

/-- What comes before the injection of a module is bringing up those in front of it. -/
theorem eq_flatMap_pair_of_inject {front back : List Nat} {position : Nat}
    {before after : List Act} (hn : (front ++ position :: back).Nodup)
    (h : script (front ++ position :: back) = before ++ .inject position :: after) :
    before = front.flatMap pair := by
  have hscript := nodup_script hn
  rw [h] at hscript
  obtain ⟨_, hcons, hdisjoint⟩ := List.nodup_append.mp hscript
  have hbefore : Act.inject position ∉ before := fun hb =>
    hdisjoint _ hb _ List.mem_cons_self rfl
  have hafter : Act.inject position ∉ after := (List.nodup_cons.mp hcons).1
  rw [script_append_cons] at h
  exact ((List.append_cons_inj_of_notMem hbefore hafter).mp h.symm).1

/-- When a module is started, all have been injected. -/
theorem inject_mem_of_start {order : List Nat} {before after : List Act} {position other : Nat}
    (h : script order = before ++ .start position :: after) (ho : other ∈ order) :
    .inject other ∈ before := by
  have hin : Act.inject other ∈ order.flatMap pair := by simpa [pair] using ho
  rcases List.append_eq_append_iff.mp h with ⟨rest, hb, _⟩ | ⟨rest, hb, hs⟩
  · rw [hb]
    exact List.mem_append_left _ hin
  · cases rest with
    | nil =>
      rw [List.append_nil] at hb
      rw [← hb]
      exact hin
    | cons act rest =>
      -- Then the start would be one of the acts that bring modules up.
      obtain ⟨rfl, _⟩ := List.cons.inj hs
      have hstart : Act.start position ∈ order.flatMap pair := by
        rw [hb]
        exact List.mem_append_right _ List.mem_cons_self
      simp [pair] at hstart

section Ordered

variable {modules : List Module} {host : Host} {graph : Graph} {front back : List Nat}
  {position : Nat}

/-- Modules of which one needs what the other provides are joined by an edge. -/
theorem dependsOn_of_point
    (hb : Graph.build (modules.map Hosted.fresh) host.context.registry = .ok graph)
    {other : Nat} {module provider : Module} {point : InjectionPoint}
    (hm : modules[position]? = some module) (hp : modules[other]? = some provider)
    (hne : other ≠ position) (hpoint : point ∈ module.points)
    (hc : point.capability ∈ provider.provides) : graph.DependsOn position other := by
  refine (Graph.dependsOn_iff_of_build hb).mpr
    ⟨Hosted.fresh module, Hosted.fresh provider, ?_, ?_, hne, ?_⟩
  · simp [hm]
  · simp [hp]
  · exact Graph.needs_of_point hpoint hc

/-- **Behind a module stands no provider of what its slots ask for.** -/
theorem not_mem_provides_of_behind
    (hb : Graph.build (modules.map Hosted.fresh) host.context.registry = .ok graph)
    (ho : graph.order = .ok (front ++ position :: back))
    {module : Module} {point : InjectionPoint} (hm : modules[position]? = some module)
    (hpoint : point ∈ module.points) {other : Nat} (hother : other ∈ back) {provider : Module}
    (hp : modules[other]? = some provider) : point.capability ∉ provider.provides := by
  intro hc
  have hnodup := nodup_of_ordered hb ho
  obtain ⟨_, hrespects⟩ := Graph.perm_and_respects_of_order (Graph.wellFormed_of_build hb) ho
  obtain ⟨_, hcons, hdisjoint⟩ := List.nodup_append.mp hnodup
  have hne : other ≠ position := by
    rintro rfl
    exact (List.nodup_cons.mp hcons).1 hother
  have hd := dependsOn_of_point hb hm hp hne hpoint hc
  -- A provider is a dependency, so it would have to stand in front as well.
  have hfront := hrespects front position back rfl other hd
  exact hdisjoint other hfront other (List.mem_cons_of_mem _ hother) rfl

/-- A module is as it was discovered until it is injected. -/
theorem Performs.getElem?_fresh {mid : State}
    (h : Performs limits (State.start modules host) (front.flatMap pair) mid)
    (hn : position ∉ front) {module : Module} (hm : modules[position]? = some module) :
    mid.modules[position]? = some (Hosted.fresh module) := by
  rw [h.getElem?_eq]
  · simp [State.start, hm]
  · intro act ha he
    obtain ⟨other, hother, hact⟩ := List.mem_flatMap.mp ha
    rw [position_of_mem_pair hact] at he
    exact hn (he ▸ hother)

end Ordered

end Boot

end ServiceHost
