import ServiceHost.Proofs.Boot.Stock
import ServiceHost.Proofs.Host.Registrations
import ServiceHost.Proofs.InProcess.Requests

/-!
# Attempts — what a launch of an in-process host comes to

The program that embeds a host brings its own locator, its own context and its own way to a vault,
and nobody asks the host to stop while it comes up. So a launch opens a host (`opened`), prepares it
and boots the modules it has found (`Boots`); what can be seen of it afterwards is what can be seen
after that boot (`view_bringUp`). **The steps of module lives that it takes are acts of the boot**
(`onlyBoots`).

The services of the program are pinned before anything is found, and nothing that the host does
before the boot replaces them (`Boots.pinnedService?_eq`).
-/

set_option autoImplicit false

namespace ServiceHost

/-- The service that is pinned under a capability. -/
def Host.pinnedService? (capability : String) (host : Host) : Option Service :=
  if capability ∈ host.context.pinned then host.find? capability else none

theorem quiet_pinnedService? (capability : String) : Quiet (Host.pinnedService? capability) :=
  quiet_registrations.comp fun registrations =>
    if capability ∈ registrations.2 then registrations.1.find? capability else none

theorem Host.find?_of_pinnedService? {host : Host} {capability : String} {service : Service}
    (h : host.pinnedService? capability = some service) : host.find? capability = some service := by
  unfold pinnedService? at h
  split at h
  · exact h
  · cases h

/-- No plain registration changes what is pinned. -/
theorem frames_pinnedService?_register (capability touched : String) (service : Service) :
    Frames (Host.pinnedService? capability) (Host.register touched service) := by
  intro host
  unfold Host.pinnedService?
  rw [Host.pinned_register, Host.find?_register]
  by_cases hp : capability ∈ host.context.pinned
  · rw [if_pos hp, if_pos hp, if_neg]
    rintro ⟨rfl, hnot⟩
    exact hnot hp
  · rw [if_neg hp, if_neg hp]

namespace InProcess

variable (host : InProcess) (world : World)

/-! ## The parts of a launch -/

/-- The host that a launch prepares, with the services of the program pinned; or the error that
there is no monitor, and the world that it leaves. -/
def opened : Except (DiscoveryError × World) Host :=
  let (typeTable, world) := (Effect.newTypeTable {}).run world
  let (found, locator) := (host.locator?.getD builtinLocator).loadMonitor
  match found with
  | .error error => .error (error, world)
  | .ok monitor => .ok
    { world := { world with monitor }
      context := pinAll host.services
        { Context.new typeTable monitor locator with overrides := { entries := host.settings } } }

/-- The steps of a launch with another way to load a vault. -/
def stepsLoading (loadVault : BootM Unit) : BootSteps :=
  { host.steps with loadVault }

/-- **A launch** is opened, brought up and answered, whichever way a vault is loaded. -/
theorem launch_eq_of_loadVault (loadVault : BootM Unit) :
    ServiceHost.launch (host.stepsLoading loadVault) world =
      match host.opened world with
      | .error (error, after) =>
        ({ outcome := .error (.discovery error), monitor := none, hook := none },
          ((host.steps.onError (.discovery error) .log).run after).2)
      | .ok start =>
        Launch.answer host.steps start.world.monitor
          (Launch.bringUp (host.stepsLoading loadVault) start).2
          (Launch.bringUp (host.stepsLoading loadVault) start).1
          (Launch.bringUp (host.stepsLoading loadVault) start).2.world := by
  unfold ServiceHost.launch opened
  rcases hm : (host.locator?.getD builtinLocator).loadMonitor with ⟨found, left⟩
  have hmonitor : ∀ mid, Launch.effect ((host.stepsLoading loadVault).monitor
      (host.locator?.getD builtinLocator)) mid = ((found.mapError .discovery, left), mid) := by
    intro mid
    show (((host.locator?.getD builtinLocator).loadMonitor.1.mapError BootError.discovery,
      (host.locator?.getD builtinLocator).loadMonitor.2), mid) = _
    rw [hm]
  have hlocator : ∀ mid, (Launch.effect (host.stepsLoading loadVault).locator mid).1 =
      host.locator?.getD builtinLocator := fun _ => rfl
  rw [Launch.bind_apply, Launch.bind_apply, Launch.bind_apply, hlocator, hmonitor]
  cases found with
  | error error => rfl
  | ok monitor => rfl

theorem launch_eq :
    ServiceHost.launch host.steps world =
      match host.opened world with
      | .error (error, after) =>
        ({ outcome := .error (.discovery error), monitor := none, hook := none },
          ((host.steps.onError (.discovery error) .log).run after).2)
      | .ok start =>
        Launch.answer host.steps start.world.monitor (Launch.bringUp host.steps start).2
          (Launch.bringUp host.steps start).1 (Launch.bringUp host.steps start).2.world :=
  host.launch_eq_of_loadVault world host.steps.loadVault

/-- A launch has found these modules, and boots them under these limits on that host. -/
def Boots (found : List Module) (limits : Limits) (mid : Host) : Prop :=
  ∃ start, host.opened world = .ok start ∧
    (Launch.prepare host.steps).on start = (.ok (found.map Hosted.fresh, limits), mid)

/-! ## Bringing up -/

/-- What an embedded host brings to a launch that any program may bring. -/
def brought : Launch.Brought where
  locator := host.steps.locator
  onError := host.steps.onError

theorem findsFresh : Launch.FindsFresh host.steps :=
  Launch.findsFresh host.brought

/-- A vault is loaded unless there is one. -/
theorem loadVault_on (start : Host) :
    host.steps.loadVault.on start =
      if start.context.registry.has Capability.vault then (.ok (), start)
      else Host.loadVault.on start := by
  show BootM.on (do
    if (← MonadState.get).context.registry.has Capability.vault then return () else Host.loadVault)
      start = _
  rw [BootM.on_bind, BootM.on_get]
  dsimp only
  split <;> rfl

/-- A view that does not show the startup status. -/
def StartupBlind {β : Type} (view : Host → β) : Prop :=
  ∀ (host : Host) (startup : CheckResult), view { host with world := { host.world with startup } } = view host

section View

variable {β : Type} {view : Host → β} (q : Quiet view)
include q

/-- Coming up shows nothing but the startup status: no module is stopped. -/
theorem frames_comeUp (hblind : StartupBlind view) (booted : List Hosted)
    (health : Ticket HealthService) (limits : Limits) :
    Frames view (Launch.comeUp host.steps booted health { limits }) := by
  have hdeclare : ∀ hook, Frames view (Launch.declareStarted host.steps health hook) := by
    intro hook
    refine (q.effect _).bind fun _ => (Frames.pure hook).bind fun hook => ?_
    refine Frames.bind (fun host => hblind host .success) fun _ => ?_
    exact (Frames.pure hook).bind fun hook => (q.effect _).bind fun _ => Frames.pure hook
  refine Frames.bind (Frames.pure _) fun hook => (Frames.pure hook).bind fun hook => ?_
  exact (hdeclare hook).bind fun _ => (Frames.pure _).bind fun _ => (q.report _).bind fun _ =>
    Frames.pure _

/-- **What bringing a host up shows** is what preparing it shows if that fails, and else what the
boot of the modules shows that were found. -/
theorem view_bringUp (hblind : StartupBlind view) (start : Host) :
    (∃ error after, (Launch.prepare host.steps).on start = (.error error, after) ∧
      (Launch.bringUp host.steps start).1.1 = .error error ∧
      view (Launch.bringUp host.steps start).2 = view after) ∨
    ∃ found limits mid,
      (Launch.prepare host.steps).on start = (.ok (found.map Hosted.fresh, limits), mid) ∧
      view (Launch.bringUp host.steps start).2 = view (Boot.outcome limits found mid).2 ∧
      ∀ name, (Launch.bringUp host.steps start).1.1 = .ok name →
        ∃ booted, (Boot.outcome limits found mid).1 = .ok booted := by
  unfold Launch.bringUp
  rw [HostM.bind_apply, show (Launch.prepare host.steps).run start =
    (Launch.prepare host.steps).on start from rfl]
  rcases hp : (Launch.prepare host.steps).on start with ⟨error | ⟨modules, limits⟩, mid⟩
  · exact .inl ⟨error, mid, rfl, rfl, rfl⟩
  · obtain ⟨found, rfl⟩ := host.findsFresh.exists_found hp
    refine .inr ⟨found, limits, mid, rfl, ?_⟩
    obtain ⟨hafter, hbooted⟩ := Launch.bootModules_on host.brought limits found mid
    dsimp only
    rw [HostM.bind_apply, HostM.bind_apply, show (Launch.bootModules host.steps limits
      (found.map .fresh)).run (host.steps.install { limits } mid).2 =
        (Launch.bootModules host.brought.steps limits (found.map .fresh)).on mid from rfl]
    rcases hb : (Launch.bootModules host.brought.steps limits (found.map .fresh)).on mid with
      ⟨error | ⟨booted, health⟩, last⟩
    · rw [hb] at hafter
      exact ⟨congrArg view hafter, fun _ h => by cases h⟩
    · rw [hb] at hafter hbooted
      have hup := host.frames_comeUp q hblind booted health limits last
      refine ⟨hup.trans (congrArg view hafter), fun _ _ => ⟨booted, hbooted booted health rfl⟩⟩

/-- **Preparing a host shows nothing** that a registration under a capability does not show. -/
theorem frames_prepare (hr : ∀ capability service, Frames view (Host.register capability service)) :
    Frames view (Launch.prepare host.steps).run := by
  refine Launch.frames_prepare_of_parts q.loadSettings ?_ (Launch.frames_modules host.brought q)
  refine (Frames.bootLift Frames.get).bootBind fun mid => ?_
  split
  · exact Frames.bootPure _
  · exact q.loadVault (hr _)

end View

/-! ## The steps of module lives -/

theorem undisturbed_opened :
    match host.opened world with
    | .ok start => world.Undisturbed start.world
    | .error (_, after) => world.Undisturbed after := by
  have hworld := (Effect.newTypeTable {}).undisturbed_run world
  unfold opened
  dsimp only
  cases (host.locator?.getD builtinLocator).loadMonitor.1 with
  | error error => exact hworld
  | ok monitor => exact ⟨hworld.steps, hworld.startup⟩

theorem undisturbed_answer (steps : BootSteps) (monitor : Monitor) (last : Host)
    (result : Except BootError String × Option ShutdownHook) (world : World) :
    world.Undisturbed (Launch.answer steps monitor last result world).2 := by
  rcases result with ⟨error | name, hook⟩
  · exact (steps.onError error monitor).undisturbed_run world
  · cases hook <;> exact ⟨rfl, rfl⟩

theorem outcome_answer (steps : BootSteps) (monitor : Monitor) (last : Host)
    (result : Except BootError String × Option ShutdownHook) (world : World) :
    (Launch.answer steps monitor last result world).1.outcome = result.1.map fun name =>
      { name, context := last.context, hook := result.2.getD { limits := {}, state := .done } } := by
  rcases result with ⟨error | name, hook⟩
  · rfl
  · cases hook <;> rfl

theorem startupBlind_steps : StartupBlind Host.steps := fun _ _ => rfl

/-- The steps that a launch takes are acts of the boot of the modules that it has found, each made
when its turn comes. If it boots none, it takes no step. -/
def OnlyBoots : Prop :=
  (∃ found limits mid, ∃ made : List (Boot.Act × Boot.State), host.Boots world found limits mid ∧
    (∀ call ∈ made, Boot.Reaches limits found mid call.1 call.2) ∧
    (host.launch world).2.steps = world.steps ++ made.map Boot.stepOf) ∨
  ((∀ found limits mid, ¬ host.Boots world found limits mid) ∧
    (host.launch world).2.steps = world.steps)

/-- **A launch does nothing to modules but boot them.** -/
theorem onlyBoots (h : host.handle? = none) : host.OnlyBoots world := by
  unfold OnlyBoots
  have hopened := host.undisturbed_opened world
  rw [launch_of_down host world h, launch_eq]
  cases ho : host.opened world with
  | error failed =>
    obtain ⟨error, after⟩ := failed
    rw [ho] at hopened
    refine .inr ⟨?_, ?_⟩
    · rintro found limits mid ⟨start, hstart, _⟩
      rw [ho] at hstart
      cases hstart
    · exact ((host.steps.onError _ _).undisturbed_run after).steps.trans hopened.steps
  | ok start =>
    rw [ho] at hopened
    have hanswer := (undisturbed_answer host.steps start.world.monitor
      (Launch.bringUp host.steps start).2 (Launch.bringUp host.steps start).1
      (Launch.bringUp host.steps start).2.world).steps
    have hprepare : ((Launch.prepare host.steps).on start).2.steps = start.steps :=
      host.frames_prepare quiet_steps frames_steps_register start
    rcases host.view_bringUp quiet_steps startupBlind_steps start with
      ⟨error, mid, hp, _, hview⟩ | ⟨found, limits, mid, hp, hview, _⟩
    -- Where preparing fails, nothing is booted; else all steps are those of the boot.
    · rw [hp] at hprepare
      refine .inr ⟨?_, hanswer.trans (hview.trans (hprepare.trans hopened.steps))⟩
      rintro found limits last ⟨start', hstart, hlast⟩
      rw [ho] at hstart
      cases hstart
      rw [hp] at hlast
      cases hlast
    · rw [hp] at hprepare
      obtain ⟨made, hmade, hsteps, _⟩ := Boot.exists_made limits found mid
      refine .inl ⟨found, limits, mid, made, ⟨start, ho, hp⟩, hmade, ?_⟩
      rw [show mid.steps = world.steps from hprepare.trans hopened.steps] at hsteps
      exact hanswer.trans (hview.trans hsteps)

/-! ## What is pinned -/

/-- The service that a program brought last to be pinned under a capability. -/
def lastMock? (capability : String) (mocks : List (String × Service)) : Option Service :=
  Registration.lastPinned? capability (mocks.map fun mock => .pinned mock.1 mock.2)

theorem pinAll_eq (services : List (String × Service)) (world : World) (context : Context) :
    pinAll services context = (({ world, context } : Host).registering
      (services.map fun service => .pinned service.1 service.2)).context := by
  induction services generalizing context with
  | nil => rfl
  | cons service rest ih => exact ih _

section Pinned

variable {host : InProcess} {world : World} {start : Host} {capability : String}

theorem exists_of_opened (h : host.opened world = .ok start) :
    ∃ monitor, start = {
      world := { ((Effect.newTypeTable {}).run world).2 with monitor }
      context := pinAll host.services {
        Context.new ((Effect.newTypeTable {}).run world).1 monitor
          (host.locator?.getD builtinLocator).loadMonitor.2 with
        overrides := { entries := host.settings } } } := by
  unfold opened at h
  dsimp only at h
  cases hm : (host.locator?.getD builtinLocator).loadMonitor.1 with
  | error error =>
    rw [hm] at h
    cases h
  | ok monitor =>
    rw [hm] at h
    cases h
    exact ⟨monitor, rfl⟩

theorem exists_registering_of_opened (h : host.opened world = .ok start) :
    ∃ bare : Host, bare.context.pinned = [] ∧ start.context = (bare.registering
      (host.services.map fun service => .pinned service.1 service.2)).context := by
  obtain ⟨monitor, rfl⟩ := exists_of_opened h
  exact ⟨_, rfl, pinAll_eq host.services world _⟩

theorem mem_pinned_of_opened (h : host.opened world = .ok start) :
    capability ∈ start.context.pinned ↔ (lastMock? capability host.services).isSome := by
  obtain ⟨bare, hbare, hcontext⟩ := exists_registering_of_opened h
  rw [hcontext, Host.mem_pinned_registering, hbare]
  simp [lastMock?]

theorem pinnedService?_of_opened (h : host.opened world = .ok start) :
    start.pinnedService? capability = lastMock? capability host.services := by
  have hmem := @mem_pinned_of_opened _ _ _ capability h
  unfold Host.pinnedService?
  cases hlast : lastMock? capability host.services with
  | none =>
    rw [hlast] at hmem
    exact if_neg fun hp => by cases hmem.mp hp
  | some service =>
    rw [hlast] at hmem
    obtain ⟨bare, _, hcontext⟩ := exists_registering_of_opened h
    have hfind := Host.find?_registering
      (host.services.map fun service => .pinned service.1 service.2) bare capability
    rw [show Registration.lastPinned? capability _ = some service from hlast] at hfind
    rw [if_pos (hmem.mpr rfl)]
    unfold Host.find? at hfind ⊢
    rw [hcontext, hfind]
    rfl

variable {found : List Module} {limits : Limits} {mid : Host}
  (h : host.Boots world found limits mid)
include h

/-- **The modules boot on a host that has pinned what the program brought** last under each
capability, and nothing else. -/
theorem Boots.pinnedService?_eq :
    mid.pinnedService? capability = lastMock? capability host.services := by
  obtain ⟨start, hopened, hprepare⟩ := h
  have hframe := host.frames_prepare (quiet_pinnedService? capability)
    (frames_pinnedService?_register capability) start
  rw [show ((Launch.prepare host.steps).run start).2 = mid from congrArg Prod.snd hprepare] at hframe
  rw [hframe, pinnedService?_of_opened hopened]

end Pinned

end InProcess

end ServiceHost
