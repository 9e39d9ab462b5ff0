import ServiceHost.Proofs.Discovery.Holdings
import ServiceHost.Proofs.InProcess.Sought

/-!
# Given — which modules a launch boots, and which services it pins

What a launch boots it finds with the locator of its host, whatever else it looked up before
(`Boots.exists_calls`). **The first launch is made with what the program gave**: its own
extensions over its delegate, and all its services. It takes both along, so a launch that is tried
again is another one: it boots what is built in, and pins no more than was brought since the last
launch that found its monitor (`attempts_given`).
-/

set_option autoImplicit false

namespace ServiceHost

/-- The module is one that a locator can hand out. -/
def Locator.Offers (locator : Locator) (module : Module) : Prop :=
  ∃ implementor, locator.Has implementor ∧ implementor.extension = .service module

namespace InProcess

open Locator (LookUp)

/-- The module is one that the program brought, or that its delegate offers. -/
def Given (delegate : Locator) (requests : List Request) (module : Module) : Prop :=
  .service module ∈ extensions requests ∨ delegate.Offers module

/-! ## Given modules and services -/

/-- The modules of a launch are found with the locator of its host, after other lookups. -/
theorem Boots.exists_calls {host : InProcess} {world : World} {found : List Module}
    {limits : Limits} {mid : Host} (h : host.Boots world found limits mid) :
    ∃ calls, LookUp (fun _ => True) calls ∧
      ((Locator.after calls host.source).loadAll .service Extension.toModule? true).1 =
        .ok found := by
  obtain ⟨vaulted, ⟨calls, hcalls, hlocator⟩, hfound, _⟩ :=
    Boots.exists_vaulted (p := fun _ => True) trivial trivial (fun _ => trivial) h
  rw [hlocator] at hfound
  exact ⟨calls, hcalls, hfound⟩

theorem eq_service_of_toModule? {extension : Extension} {module : Module}
    (h : extension.toModule? = some module) : extension = .service module := by
  cases extension with
  | service other =>
    cases h
    rfl
  | _ => cases h

/-- **A host that was never launched boots what it was given**: what the program brought, and what
its delegate offers. -/
theorem Boots.given {delegate : Locator} {world : World} {requests : List Request}
    (hnone : .launch ∉ requests) {found : List Module} {limits : Limits} {mid : Host}
    (h : (after requests (new delegate, world)).1.Boots (after requests (new delegate, world)).2
      found limits mid) {module : Module} (hmem : module ∈ found) :
    Given delegate requests module := by
  obtain ⟨calls, hcalls, hfound⟩ := h.exists_calls
  rw [source, (after_of_not_launched delegate world requests hnone).2.2] at hfound
  obtain ⟨implementor, hhas, hcast⟩ := Locator.exists_has_of_loadAll hcalls hfound hmem
  have hservice := eq_service_of_toModule? hcast
  rcases hhas with hown | hbelow
  · obtain ⟨extension, hextension, rfl⟩ := List.mem_map.mp hown
    exact .inl (hservice ▸ hextension)
  · exact .inr ⟨implementor, hbelow, hservice⟩

/-- A host that was launched before boots what is built in, whatever it was given. -/
theorem Boots.builtin {delegate : Locator} {world : World} {requests : List Request}
    (hlaunched : .launch ∈ requests) {found : List Module} {limits : Limits} {mid : Host}
    (h : (after requests (new delegate, world)).1.Boots (after requests (new delegate, world)).2
      found limits mid) : found = [CoreServices.module] := by
  obtain ⟨calls, hcalls, hfound⟩ := h.exists_calls
  rw [source, locator?_after_of_launched delegate world requests hlaunched, Option.getD_none,
    builtinLocator, Locator.after_manifest hcalls] at hfound
  have hbuiltin : ((Locator.manifest builtinEntries).loadAll .service Extension.toModule? true).1 =
      .ok [CoreServices.module] := by
    simp [Locator.loadAll, Locator.implementors, Locator.entriesOf, builtinEntries, Extension.point,
      ExtensionPoint.service, ExtensionPoint.settings, Locator.typed, Extension.toModule?,
      Except.bind, bind, pure, Except.pure]
  exact Except.ok.inj (hfound.symm.trans hbuiltin)

theorem Behind.eq_of_not_launched {start : InProcess × World} {requests behind : List Request}
    (h : Behind start requests behind) (hnone : .launch ∉ requests) : behind = requests := by
  induction h with
  | nil => rfl
  | kept _ _ ih => rw [ih fun hlaunch => hnone (List.mem_append_left _ hlaunch)]
  | used hused =>
    obtain ⟨rfl, _, _⟩ := hused
    exact absurd (by simp) hnone

/-- **The first launch is made with what the program gave, and no other is.** Whatever a program asks
of its host before a launch, the launch does nothing to modules but boot those it has found, on a
host that has pinned the services brought since the last launch that found its monitor. If there was
no launch before, those are all services, and each of the modules was brought by the program or is
offered by its delegate; but a launch that is tried again finds the core services and nothing else,
whatever was given. -/
theorem attempts_given (delegate : Locator) (world : World) (requests : List Request)
    (hdown : (after requests (new delegate, world)).1.handle? = none) :
    (after requests (new delegate, world)).1.OnlyBoots (after requests (new delegate, world)).2 ∧
    ∃ behind, Behind (new delegate, world) requests behind ∧
      ∀ found limits mid, (after requests (new delegate, world)).1.Boots
          (after requests (new delegate, world)).2 found limits mid →
        (∀ act state, Boot.Reaches limits found mid act state →
          ∀ position, state.moduleAt position = found[position]?) ∧
        (∀ capability, mid.pinnedService? capability = lastMock? capability (mocks behind)) ∧
        (.launch ∉ requests → behind = requests ∧
          ∀ module ∈ found, .service module ∈ extensions requests ∨ delegate.Offers module) ∧
        (.launch ∈ requests → found = [CoreServices.module]) := by
  obtain ⟨behind, hbehind⟩ := exists_behind (new delegate, world) requests
  refine ⟨onlyBoots _ _ hdown, behind, hbehind, ?_⟩
  intro found limits mid hboots
  refine ⟨fun act state hreach => hreach.moduleAt_eq, fun capability => ?_, fun hnone => ?_,
    fun hlaunched => Boots.builtin hlaunched hboots⟩
  · rw [hboots.pinnedService?_eq, services_after requests rfl hbehind]
  · exact ⟨hbehind.eq_of_not_launched hnone, fun _ hmem => Boots.given hnone hboots hmem⟩

theorem not_offers_nil (module : Module) : ¬ (Locator.manifest []).Offers module := by
  rintro ⟨_, ⟨_, hentry, _⟩, _⟩
  cases hentry

/-- A host that finds only what is brought to it, after requests. -/
def alone (requests : List Request) : InProcess × World :=
  after requests (new (.manifest []), {})

/-- A program brings a clock and the core services. -/
def clockBrought : List Request :=
  [.pin "test:clock" (.byte 1), .extend (.service CoreServices.module)]

/-- The first launch with a clock and the core services has both, and no other modules. -/
theorem attempts_given_clockBrought :
    (alone clockBrought).1.handle? = none ∧
    ∃ found limits mid, (alone clockBrought).1.Boots (alone clockBrought).2 found limits mid ∧
      mid.pinnedService? "test:clock" = some (.byte 1) ∧
      ∀ module ∈ found, .service module ∈ extensions clockBrought := by
  have hdown : (alone clockBrought).1.handle? = none := rfl
  obtain ⟨honly, behind, _, hboots⟩ := attempts_given (.manifest []) {} clockBrought hdown
  have hsteps : ((alone clockBrought).1.launch (alone clockBrought).2).2.steps ≠
      (alone clockBrought).2.steps := by decide +kernel
  rcases honly with ⟨found, limits, mid, _, hmid, _, _⟩ | ⟨_, hnone⟩
  · obtain ⟨_, hpinned, hfirst, _⟩ := hboots found limits mid hmid
    obtain ⟨rfl, hgiven⟩ := hfirst (by simp [clockBrought])
    refine ⟨hdown, found, limits, mid, hmid, hpinned "test:clock", fun module hmem => ?_⟩
    exact (hgiven module hmem).resolve_right (not_offers_nil module)
  · exact absurd hnone hsteps

/-- A program brings a clock and no modules, and its launch is refused. -/
def clockRefused : List Request :=
  [.pin "test:clock" (.byte 1), .launch]

/-- **A launch that is tried again boots what was never given.** The program has brought no module
and its delegate offers none, so its first launch was refused and took no step; the second one goes
through, with the core services and without the clock. -/
theorem retried_clockRefused :
    (alone clockRefused).1.handle? = none ∧
    extensions clockRefused = [] ∧ (∀ module, ¬ (Locator.manifest []).Offers module) ∧
    lastMock? "test:clock" (mocks clockRefused) = some (.byte 1) ∧
    (alone clockRefused).2.steps = [] ∧
    ((alone clockRefused).1.launch (alone clockRefused).2).2.steps =
      [(.inject, "Core Services"), (.call .setUp, "Core Services"),
        (.call .start, "Core Services")] ∧
    (((alone clockRefused).1.launch (alone clockRefused).2).1.2.get "test:clock" .byte).map
      Service.type = .error (.missing "test:clock") := by
  have hdown : (alone clockRefused).1.handle?.isNone = true := by decide +kernel
  exact ⟨Option.isNone_iff_eq_none.mp hdown, rfl, not_offers_nil, rfl, by decide +kernel,
    by decide +kernel, by decide +kernel⟩

end InProcess

end ServiceHost
