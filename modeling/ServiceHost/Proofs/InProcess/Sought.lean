import ServiceHost.Proofs.Host.Lookups
import ServiceHost.Proofs.InProcess.Attempt

/-!
# Sought — what a launch looks up

A launch looks for monitors, for settings and for a vault before it looks for modules, and it asks
the locator of its host for all of it, one after the other (`Boots.exists_vaulted`). Only the vault
it may do without: **a pinned vault is there before one is looked for**, so the launch is one that
does nothing to get a vault (`launch_of_vault_pinned`), and if its modules ask for none either, it
ends without having looked one up (`Boots.outcome_soughtFrom`).
-/

set_option autoImplicit false

namespace ServiceHost

open Locator (Call LookUp)

/-- Setting the module up looks up only points of a kind. -/
def Module.Seeks (p : ExtensionPoint → Prop) (module : Module) : Prop :=
  ∀ memory, (module.setUp memory).AllOps (ContextOp.Seeks p)

namespace InProcess

variable {host : InProcess} {world : World} {start mid : Host} {found : List Module}
  {limits : Limits}

/-- Where a launch discovers its extensions. -/
def source (host : InProcess) : Locator :=
  host.locator?.getD builtinLocator

/-! ## Up to the modules -/

theorem locator_pinAll (services : List (String × Service)) (context : Context) :
    (pinAll services context).locator = context.locator := by
  induction services generalizing context with
  | nil => rfl
  | cons service rest ih => exact ih _

theorem locator_of_opened (h : host.opened world = .ok start) :
    start.locator = Locator.after [.all .monitor false] host.source := by
  obtain ⟨monitor, rfl⟩ := exists_of_opened h
  exact locator_pinAll _ _

theorem has_vault_of_opened (h : host.opened world = .ok start) {vault : Service}
    (hvault : lastMock? Capability.vault host.services = some vault) :
    start.context.registry.has Capability.vault = true := by
  have hfind := Host.find?_of_pinnedService? ((pinnedService?_of_opened h).trans hvault)
  unfold Registry.has
  rw [show start.context.registry.find? Capability.vault = some vault from hfind]
  rfl

theorem locator_loadVault (host : InProcess) (start : Host) :
    (host.steps.loadVault.on start).2.locator =
      Locator.after (if start.context.registry.has Capability.vault then [] else
        [.one .vault false]) start.locator := by
  rw [loadVault_on]
  split
  · rfl
  · exact start.locator_loadVault

/-- The modules that a launch finds are what its host discovers. -/
theorem found_of_modules {after : Host}
    (h : host.steps.modules.on start = (.ok (found.map Hosted.fresh), after)) :
    (start.locator.loadAll .service Extension.toModule? true).1 = .ok found ∧
      after.locator = Locator.after [.all .service true] start.locator := by
  obtain ⟨answer, mid, hanswer, h⟩ := BootM.exists_of_on_bind h
  have hmid : mid.locator = Locator.after [.all .service true] start.locator :=
    (congrArg (·.2.locator) hanswer).symm
  have hdiscover : (start.locator.loadAll .service Extension.toModule? true).1.map
      (·.map Hosted.fresh) = answer := Except.ok.inj (congrArg Prod.fst hanswer)
  cases hloaded : (start.locator.loadAll .service Extension.toModule? true).1 with
  | error error =>
    rw [hloaded] at hdiscover
    subst hdiscover
    cases h
  | ok modules =>
    rw [hloaded] at hdiscover
    subst hdiscover
    have hsame : modules.map Hosted.fresh = found.map Hosted.fresh :=
      Except.ok.inj (congrArg Prod.fst h)
    have hmodules := congrArg (List.map Hosted.module) hsame
    simp only [List.map_map, Function.comp_def, Hosted.fresh, List.map_id'] at hmodules
    have hafter : after.locator = mid.locator := (congrArg (·.2.locator) h).symm
    exact ⟨congrArg Except.ok hmodules, hafter.trans hmid⟩

section Boots

variable {p : ExtensionPoint → Prop} (hmonitor : p .monitor) (hsettings : p .settings)
  (hvault : lastMock? Capability.vault host.services = none → p .vault)
include hmonitor hsettings hvault

/-- **What a launch looks up before its modules** are monitors, settings and, unless one is pinned,
a vault; and the modules are found with what these lookups have left. -/
theorem Boots.exists_vaulted (h : host.Boots world found limits mid) :
    ∃ vaulted : Host, vaulted.SoughtFrom p host.source ∧
      (vaulted.locator.loadAll .service Extension.toModule? true).1 = .ok found ∧
      mid.locator = Locator.after [.all .service true] vaulted.locator := by
  obtain ⟨start, hopened, hprepare⟩ := h
  obtain ⟨settled, vaulted, hsettled, hvaulted, hmodules, _⟩ := Launch.exists_of_prepare hprepare
  have hstart : start.SoughtFrom p host.source :=
    ⟨_, Locator.lookUp_all hmonitor, locator_of_opened hopened⟩
  have hsettle : settled.SoughtFrom p host.source :=
    hstart.then (Locator.lookUp_one hsettings)
      ((congrArg (·.2.locator) hsettled).symm.trans start.locator_loadSettings)
  have hregistry : settled.context.registry = start.context.registry := by
    have hframe := quiet_registry.loadSettings start
    rwa [show Host.loadSettings.run start = (.ok (), settled) from hsettled] at hframe
  refine ⟨vaulted, ?_, found_of_modules hmodules⟩
  refine hsettle.then ?_ ((congrArg (·.2.locator) hvaulted).symm.trans
    (host.locator_loadVault settled))
  -- Settings bring no vault, so whether one is there was settled by the pins.
  cases hlast : lastMock? Capability.vault host.services with
  | some vault =>
    rw [if_pos (hregistry ▸ has_vault_of_opened hopened hlast)]
    exact Locator.lookUp_nil
  | none =>
    split
    · exact Locator.lookUp_nil
    · exact Locator.lookUp_one (hvault hlast)

/-- **A launch looks up nothing else in the end** than it looks up before its modules boot and they
look up themselves. -/
theorem Boots.outcome_soughtFrom (h : host.Boots world found limits mid) (hservice : p .service)
    (hseeks : ∀ module ∈ found, module.Seeks p) :
    (Boot.outcome limits found mid).2.SoughtFrom p host.source := by
  obtain ⟨vaulted, hvaulted, _, hmid⟩ := h.exists_vaulted hmonitor hsettings hvault
  refine Boot.outcome_invariant ?_ (hvaulted.then (Locator.lookUp_all hservice) hmid)
  intro act hosted hmem host hhost
  refine Host.SoughtFrom.then ?_ Locator.lookUp_nil (act.view_call Host.calm_locator limits hosted host)
  -- Only while it is set up can a module look anything up.
  cases act with
  | setUp _ =>
    have hentered : (host.enter (.call .setUp) hosted.name).SoughtFrom p _ :=
      hhost.then Locator.lookUp_nil rfl
    exact hentered.contextEffect (hseeks _ hmem hosted.memory)
  | _ => exact hhost.then Locator.lookUp_nil rfl

end Boots

/-! ## A pinned vault -/

theorem prepare_of_has_vault (h : start.context.registry.has Capability.vault = true) :
    (Launch.prepare (host.stepsLoading (pure ()))).on start =
      (Launch.prepare host.steps).on start := by
  unfold Launch.prepare
  rw [BootM.on_bind, BootM.on_bind]
  have hregistry : (Host.loadSettings.on start).2.context.registry = start.context.registry :=
    quiet_registry.loadSettings start
  rw [show (host.stepsLoading (pure ())).loadSettings = Host.loadSettings from rfl,
    show host.steps.loadSettings = Host.loadSettings from rfl]
  rcases hs : Host.loadSettings.on start with ⟨error | _, settled⟩
  · rfl
  · rw [hs] at hregistry
    dsimp only
    rw [BootM.on_bind, BootM.on_bind, loadVault_on, hregistry, if_pos h]
    rfl

/-- **With a vault that is pinned no vault is loaded**: the launch is one that does nothing to get
one. -/
theorem launch_of_vault_pinned {vault : Service}
    (h : lastMock? Capability.vault host.services = some vault) :
    ServiceHost.launch (host.stepsLoading (pure ())) world = ServiceHost.launch host.steps world := by
  rw [launch_eq_of_loadVault, launch_eq]
  cases ho : host.opened world with
  | error failed => rfl
  | ok start =>
    have hbringUp : Launch.bringUp (host.stepsLoading (pure ())) start =
        Launch.bringUp host.steps start := by
      unfold Launch.bringUp
      rw [HostM.bind_apply, HostM.bind_apply, show (Launch.prepare (host.stepsLoading (pure ()))).run
        start = (Launch.prepare host.steps).run start from
          prepare_of_has_vault (has_vault_of_opened ho h)]
      rfl
    dsimp only
    rw [hbringUp]

end InProcess

end ServiceHost
