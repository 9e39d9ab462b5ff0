import ServiceHost.Proofs.Boot.Writers

/-!
# Consumers — no slot goes stale

A module is injected at one moment of a boot, and others go on registering. What its slots were
given is all the same **what the registry resolves after the boot**, as all providers of a slot's
capability stand before the module and are done by then. The one exception is what the module
provides itself: that it may publish, or replace, after it was injected.
-/

set_option autoImplicit false

namespace ServiceHost

/-- What a capability resolves to is decided by what is found under it. -/
theorem Registry.resolve_congr {registry other : Registry} {capability : String}
    (h : registry.find? capability = other.find? capability) (required : Bool) :
    registry.resolve capability required = other.resolve capability required := by
  unfold Registry.resolve
  rw [h]

namespace Boot

variable {limits : Limits} {modules : List Module} {host : Host}

/-- In the boot of the modules, the one at a position is injected on the host `before`, and is
`injected` from then on. -/
def Injects (limits : Limits) (modules : List Module) (host : Host) (position : Nat)
    (before : Host) (injected : Hosted) : Prop :=
  ∃ graph order done rest mid next,
    Graph.build (modules.map Hosted.fresh) host.context.registry = .ok graph ∧
    graph.order = .ok order ∧ script order = done ++ .inject position :: rest ∧
    Performs limits (State.start modules host) done mid ∧ mid.host = before ∧
    Takes limits mid (.inject position) next ∧ next.modules[position]? = some injected

/-- A boot that comes up has performed its script. -/
theorem exists_performs_of_outcome_ok {booted : List Hosted}
    (h : (outcome limits modules host).1 = .ok booted) :
    ∃ graph order final,
      Graph.build (modules.map Hosted.fresh) host.context.registry = .ok graph ∧
      graph.order = .ok order ∧
      Performs limits (State.start modules host) (script order) final ∧
      (outcome limits modules host).2 = final.host := by
  cases hp : plan (modules.map Hosted.fresh) host.context.registry with
  | error error =>
    rw [outcome_of_plan_error hp] at h
    cases h
  | ok order =>
    obtain ⟨graph, hb, ho⟩ := plan_eq_ok_iff.mp hp
    cases enacts_boot hb ho limits with
    | @all final _ run eq _ => exact ⟨graph, order, final, hb, ho, run, congrArg Prod.snd eq⟩
    | stopped _ _ _ eq =>
      unfold outcome at h
      rw [show (boot Injection.fromRegistry limits (modules.map Hosted.fresh)).on host = _ from eq]
        at h
      cases h

/-- **No slot goes stale.** Where every module keeps to its declarations and the boot comes up,
each module was injected at some moment, its memory held from then on what its slots were given,
and whatever a slot was given — a service, or nothing — is what its capability resolves to after
the boot, unless the module provides that capability itself. -/
theorem slots_agree_with_registry {booted : List Hosted}
    (hk : ∀ module ∈ modules, module.KeepsToDeclared)
    (hb : (outcome limits modules host).1 = .ok booted) {position : Nat} {module : Module}
    (hm : modules[position]? = some module) :
    ∃ before injected, Injects limits modules host position before injected ∧
      ∃ given : InjectionPoint → Option Service,
        injected.memory = (module.points.filterMap fun point =>
          (given point).map (point.field, ·)).reverse ∧
        ∀ point ∈ module.points,
          Injection.Gives before.context.registry module point (given point) ∧
          (point.capability ∉ module.provides →
            (outcome limits modules host).2.context.registry.resolve point.capability
              point.required = .ok (given point)) := by
  obtain ⟨graph, order, final, hgraph, horder, hrun, hfinal⟩ := exists_performs_of_outcome_ok hb
  have hnodup := nodup_of_ordered hgraph horder
  have hlt := (List.getElem?_eq_some_iff.mp hm).1
  obtain ⟨front, back, rfl⟩ := List.append_of_mem ((mem_of_ordered hgraph horder).mpr hlt)
  have hscript := script_append_cons front back position
  rw [hscript] at hrun
  obtain ⟨mid, hfront, hrest⟩ := hrun.split
  cases hrest with
  | @cons _ next _ _ _ htake hback =>
    have hnotin : position ∉ front := fun hin =>
      (List.nodup_append.mp hnodup).2.2 position hin position List.mem_cons_self rfl
    have hfresh := hfront.getElem?_fresh hnotin hm
    obtain ⟨injected, hinjected, hmemory, hgives⟩ := htake.memory_of_inject hfresh
    refine ⟨mid.host, injected, ⟨graph, _, _, _, mid, next, hgraph, horder, hscript, hfront, rfl,
      htake, hinjected⟩, fun point => mid.host.find? point.capability, ?_, ?_⟩
    · rw [hmemory]
      exact List.append_nil _
    intro point hpoint
    refine ⟨hgives point hpoint, fun hself => ?_⟩
    -- From the injection on, nobody publishes the capability: the module itself does not provide
    -- it, and all others that do stand in front.
    have hkept : final.host.find? point.capability = mid.host.find? point.capability := by
      refine (Performs.cons htake hback).find?_eq ?_
      intro other hother provider hat
      have hat : modules[other]? = some provider := by
        rw [← hat, hfront.moduleAt_eq, State.moduleAt_start]
      refine ⟨hk provider (List.mem_of_getElem? hat), ?_⟩
      rcases mem_behind.mp hother with rfl | hother
      · cases hm.symm.trans hat
        exact hself
      · exact not_mem_provides_of_behind hgraph horder hm hpoint hother hat
    rw [hfinal, Registry.resolve_congr (show _ = _ from hkept)]
    exact Injection.resolve_of_gives (hgives point hpoint)

/-- A module with a slot for what two others provide, one for what nobody provides, and one for
what the host has pinned. -/
def webModule : Module where
  name := "web"
  kind := "web"
  points :=
    [ { field := "store", capability := "test:store", service := .byte, target := "web" },
      { field := "trace", capability := "test:trace", service := .text, required := false
        target := "web" },
      { field := "clock", capability := "test:clock", service := .long, target := "web" } ]

def twoStores : List Module :=
  [webModule, .publisher "first" "test:store" (.byte 1), .publisher "second" "test:store" (.byte 2)]

def clockHost : Host where
  context := ({} : Context).pin "test:clock" (.long 7)

theorem slots_of_webModule :
    (∀ module ∈ twoStores, module.KeepsToDeclared) ∧
    (∃ booted, (outcome {} twoStores clockHost).1 = .ok booted) ∧
    ∃ before injected, Injects {} twoStores clockHost 0 before injected ∧
      ∃ given : InjectionPoint → Option Service,
        injected.memory = (webModule.points.filterMap fun point =>
          (given point).map (point.field, ·)).reverse ∧
        ∀ point ∈ webModule.points,
          (outcome {} twoStores clockHost).2.context.registry.resolve point.capability
            point.required = .ok (given point) := by
  have hk : ∀ module ∈ twoStores, module.KeepsToDeclared := by
    intro module hm
    rcases List.mem_cons.mp hm with rfl | hm
    · exact Module.keepsToDeclared_of_pure fun _ => rfl
    · rcases List.mem_cons.mp hm with rfl | hm
      · exact Module.keepsToDeclared_publisher _ _ _ _
      · rw [List.mem_singleton.mp hm]
        exact Module.keepsToDeclared_publisher _ _ _ _
  have hnames : (outcome {} twoStores clockHost).1.map (·.map Hosted.name) =
      .ok ["first", "second", "web"] := by decide +kernel
  obtain ⟨booted, hb, _⟩ := map_eq_ok_iff.mp hnames
  obtain ⟨before, injected, hi, given, hmemory, hgiven⟩ :=
    @slots_agree_with_registry {} twoStores clockHost booted hk hb 0 webModule rfl
  refine ⟨hk, ⟨booted, hb⟩, before, injected, hi, given, hmemory, ?_⟩
  intro point hp
  exact (hgiven point hp).2 List.not_mem_nil

end Boot

end ServiceHost
