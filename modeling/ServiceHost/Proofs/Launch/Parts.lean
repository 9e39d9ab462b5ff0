import ServiceHost.Proofs.Launch.Holders

/-!
# Parts — what a launch is put together from

A program that embeds a host may bring a locator, hand the shutdown hook to code of its own, ask
the host to stop while it comes up, and learn of errors (`Brought`); all other steps are those of a
host on its own, and the modules are whatever the locator finds. Such a launch opens a host,
attempts to bring it up, and announces the error if that fails (`launch_eq`). An attempt has an end
for every step that can fail, but **three kinds of ends in all** (`BringsUp`): nothing was booted;
the boot or what follows it has failed; or the host is up.
-/

set_option autoImplicit false

namespace ServiceHost

namespace Launch

/-- What a program that embeds a host brings to a launch. -/
structure Brought where
  locator : Effect Locator
  /-- Is handed the shutdown hook, with the monitor of the host. -/
  install : Monitor → HookEffect Unit := fun _ => pure ()
  /-- Asks the host to stop. -/
  stopRequested : Moment → Effect Bool := fun _ => pure false
  /-- Learns of the error that ended a launch. -/
  onError : BootError → Monitor → Effect Unit

namespace Brought

/-- The steps of a launch with what the program brings, and all others as they are. -/
def steps (brought : Brought) : BootSteps where
  locator := brought.locator
  install hook := fun host => (brought.install host.context.monitor).after hook host
  stopRequested := brought.stopRequested
  onError := brought.onError

/-- The same, but nobody learns of errors. -/
def silent (brought : Brought) : Brought :=
  { brought with onError := fun _ _ => pure () }

end Brought

variable (brought : Brought)

/-! ## The parts of a launch -/

/-- A host that has found its monitor, before anything is loaded; or the error that there is no
monitor, and the world that it leaves. -/
def opened (world : World) : Except (BootError × World) Host :=
  let (typeTable, world) := (Effect.newTypeTable {}).run world
  let (locator, world) := brought.locator.run world
  let (found, locator) := locator.loadMonitor
  match found with
  | .error error => .error (.discovery error, world)
  | .ok monitor => .ok
    { world := { world with monitor }, context := Context.new typeTable monitor locator }

/-- A launch that goes on from what was opened, and announces nothing. -/
def attempt : Except (BootError × World) Host → Attempt × World
  | .error (error, world) => ({ outcome := .error error, monitor := none, hook := none }, world)
  | .ok host =>
    let ((outcome, hook), after) := bringUp brought.steps host
    ({ outcome := outcome.map fun name =>
        { name, context := after.context, hook := hook.getD { limits := {}, state := .done } }
       monitor := host.context.monitor
       hook }, after.world)

/-- What a launch announces after an attempt. -/
def announce (tried : Attempt × World) : Attempt × World :=
  match tried.1.outcome with
  | .ok _ => tried
  | .error error =>
    (tried.1, ((brought.onError error (tried.1.monitor.getD .log)).run tried.2).2)

theorem bind_apply {α β : Type} (action : StateM World α) (rest : α → StateM World β)
    (world : World) : (action >>= rest) world = rest (action world).1 (action world).2 := rfl

/-- **A launch** is opened, attempted and announced. -/
theorem launch_eq (world : World) :
    launch brought.steps world = announce brought (attempt brought (opened brought world)) := by
  unfold launch opened
  rcases hl : brought.locator.run ((Effect.newTypeTable {}).run world).2 with ⟨locator, mid⟩
  rcases hm : locator.loadMonitor with ⟨found, left⟩
  have hmonitor : effect (brought.steps.monitor locator) mid =
      ((found.mapError .discovery, left), mid) := by
    show ((locator.loadMonitor.1.mapError BootError.discovery, locator.loadMonitor.2), mid) = _
    rw [hm]
  have hlocator : effect brought.steps.locator (effect brought.steps.typeTable world).2 =
      (locator, mid) := hl
  rw [bind_apply, bind_apply, hlocator, bind_apply, hmonitor]
  dsimp only
  rw [hl]
  dsimp only
  rw [hm]
  cases found with
  | error error => rfl
  | ok monitor =>
    let host : Host :=
      { world := { mid with monitor }
        context := Context.new ((Effect.newTypeTable {}).run world).1 monitor left }
    show (do
        set (bringUp brought.steps host).2.world
        answer brought.steps monitor (bringUp brought.steps host).2
          (bringUp brought.steps host).1 : StateM World Attempt) mid =
      announce brought (attempt brought (.ok host))
    unfold attempt
    dsimp only
    rcases bringUp brought.steps host with ⟨⟨error | name, _ | hook⟩, after⟩ <;> rfl

theorem announce_fst (tried : Attempt × World) : (announce brought tried).1 = tried.1 := by
  unfold announce
  cases tried.1.outcome <;> rfl

theorem announce_silent (tried : Attempt × World) : announce brought.silent tried = tried := by
  unfold announce
  cases tried.1.outcome <;> rfl

theorem undisturbed_announce (tried : Attempt × World) :
    tried.2.Undisturbed (announce brought tried).2 := by
  unfold announce
  cases tried.1.outcome with
  | ok _ => exact ⟨rfl, rfl⟩
  | error error => exact (brought.onError error _).undisturbed_run tried.2

/-! ## Opening -/

theorem undisturbed_opened (world : World) :
    match opened brought world with
    | .ok host => world.Undisturbed host.world
    | .error (_, after) => world.Undisturbed after := by
  have hlocated := ((Effect.newTypeTable {}).undisturbed_run world).trans
    (brought.locator.undisturbed_run ((Effect.newTypeTable {}).run world).2)
  unfold opened
  dsimp only
  cases (brought.locator.run ((Effect.newTypeTable {}).run world).2).1.loadMonitor.1 with
  | error error => exact hlocated
  | ok monitor => exact ⟨hlocated.steps, hlocated.startup⟩

/-! ## Preparing -/

/-- What a launch finds are modules that nothing has happened to yet. -/
def FindsFresh (steps : BootSteps) : Prop :=
  ∀ ⦃host after : Host⦄ ⦃modules : List Hosted⦄, steps.modules.on host = (.ok modules, after) →
    ∃ found : List Module, modules = found.map Hosted.fresh

section Prepare

variable {steps : BootSteps}

/-- Preparing goes through in each of its parts. -/
theorem exists_of_prepare {host after : Host} {modules : List Hosted} {limits : Limits}
    (h : (prepare steps).on host = (.ok (modules, limits), after)) :
    ∃ settled vaulted, steps.loadSettings.on host = (.ok (), settled) ∧
      steps.loadVault.on settled = (.ok (), vaulted) ∧
      steps.modules.on vaulted = (.ok modules, after) ∧
      Limits.ofSettings after.context.settings = .ok limits := by
  obtain ⟨_, settled, hsettings, h⟩ := BootM.exists_of_on_bind h
  obtain ⟨_, vaulted, hvault, h⟩ := BootM.exists_of_on_bind h
  obtain ⟨prepared, last, hmodules, h⟩ := BootM.exists_of_on_bind h
  obtain ⟨_, _, hget, h⟩ := BootM.exists_of_on_bind h
  cases hget
  cases hl : Limits.ofSettings last.context.settings with
  | error error =>
    rw [hl] at h
    cases h
  | ok limits =>
    rw [hl] at h
    cases h
    exact ⟨settled, vaulted, hsettings, hvault, hmodules, hl⟩

/-- The modules that are prepared are those that were found. -/
theorem FindsFresh.exists_found (hs : FindsFresh steps) {host after : Host} {modules : List Hosted}
    {limits : Limits} (h : (prepare steps).on host = (.ok (modules, limits), after)) :
    ∃ found : List Module, modules = found.map Hosted.fresh := by
  obtain ⟨_, _, _, _, hmodules, _⟩ := exists_of_prepare h
  exact hs hmodules

/-- Preparing a host shows what its parts show. -/
theorem frames_prepare_of_parts {β : Type} {view : Host → β}
    (hsettings : Frames view steps.loadSettings.run) (hvault : Frames view steps.loadVault.run)
    (hmodules : Frames view steps.modules.run) : Frames view (prepare steps).run := by
  refine hsettings.bootBind fun _ => hvault.bootBind fun _ => hmodules.bootBind fun modules =>
    (Frames.bootLift Frames.get).bootBind fun host => ?_
  cases Limits.ofSettings host.context.settings with
  | error error => exact Frames.bootThrow _
  | ok limits => exact Frames.bootPure _

end Prepare

/-- Looking for modules shows nothing. -/
theorem frames_modules {β : Type} {view : Host → β} (q : Quiet view) :
    Frames view brought.steps.modules.run := by
  refine (Frames.bootLift q.discover).bootBind fun found => ?_
  cases found with
  | error error => exact Frames.bootThrow _
  | ok modules => exact Frames.bootPure _

/-- **Preparing a host shows nothing**: it loads parts, registers the vault and asks for modules. -/
theorem frames_prepare {β : Type} {view : Host → β} (q : Quiet view)
    (hr : ∀ capability service, Frames view (Host.register capability service)) :
    Frames view (prepare brought.steps).run :=
  frames_prepare_of_parts q.loadSettings (q.loadVault (hr _)) (frames_modules brought q)

theorem undisturbed_prepare (host : Host) :
    host.world.Undisturbed ((prepare brought.steps).on host).2.world :=
  ⟨frames_prepare brought quiet_steps frames_steps_register host,
    frames_prepare brought quiet_startup frames_startup_register host⟩

theorem findsFresh : FindsFresh brought.steps := by
  intro host after modules h
  have hdiscover : ∃ answer : Except DiscoveryError (List Module),
      (Host.discover host).1 = answer.map (·.map Hosted.fresh) := ⟨_, rfl⟩
  obtain ⟨answer, hanswer⟩ := hdiscover
  obtain ⟨found, mid, hfound, h⟩ := BootM.exists_of_on_bind h
  have heq : (Host.discover host).1 = found := Except.ok.inj (congrArg Prod.fst hfound)
  rw [hanswer] at heq
  subst heq
  cases answer with
  | error error => cases h
  | ok found =>
    cases h
    exact ⟨found, rfl⟩

/-! ## Booting -/

theorem keeps_install (limits : Limits) (host : Host) :
    ShutdownHook.Keeps { limits } host (brought.steps.install { limits } host) :=
  (brought.install host.context.monitor).keeps (fun _ h => by cases h) host

theorem onlyStops_heed (moment : Moment) (hook : ShutdownHook) :
    OnlyStops (heed brought.steps moment hook) := by
  refine (OnlyStops.effect _).bind fun requested => ?_
  cases requested with
  | false => exact .pure _
  | true => exact hook.onlyStops_run.bind fun _ => .pure _

/-- Requests that come before the modules are handed over stop nothing. -/
theorem keeps_heed (moment : Moment) {hook : ShutdownHook} (h : hook.Unarmed) (host : Host) :
    ShutdownHook.Keeps hook host (heed brought.steps moment hook host) := by
  have hlearned := (brought.stopRequested moment).undisturbed_run host.world
  unfold heed
  rw [HostM.bind_apply]
  cases hr : (Host.effect (brought.steps.stopRequested moment) host).1 with
  | false => exact ⟨h, id, hlearned⟩
  | true =>
    rw [if_pos rfl, HostM.bind_apply, ShutdownHook.run_of_unarmed h]
    exact ⟨hook.unarmed_disarm, fun _ => rfl, hlearned⟩

theorem bootModules_on (limits : Limits) (found : List Module) (host : Host) :
    ((bootModules brought.steps limits (found.map Hosted.fresh)).on host).2 =
        (Boot.outcome limits found host).2 ∧
      ∀ booted health, ((bootModules brought.steps limits (found.map Hosted.fresh)).on host).1 =
        .ok (booted, health) → (Boot.outcome limits found host).1 = .ok booted := by
  have hlook : ∀ host, (healthService.on host).2 = host := by
    intro host
    unfold healthService
    rw [BootM.on_bind, BootM.on_get]
    dsimp only
    split <;> rfl
  have hboot : (brought.steps.boot limits (found.map Hosted.fresh)).on host =
      Boot.outcome limits found host := rfl
  unfold bootModules
  rw [BootM.on_bind, hboot]
  rcases Boot.outcome limits found host with ⟨error | booted, mid⟩
  · exact ⟨rfl, fun _ _ h => by cases h⟩
  · dsimp only
    have hmid := hlook mid
    rw [BootM.on_bind]
    rcases hh : healthService.on mid with ⟨error | health, last⟩
    · rw [hh] at hmid
      exact ⟨hmid, fun _ _ h => by cases h⟩
    · rw [hh] at hmid
      refine ⟨hmid, fun _ _ h => ?_⟩
      cases h
      rfl

/-! ## Coming up -/

theorem declareStarted_spec (health : Ticket HealthService) (hook : ShutdownHook) (host : Host) :
    host.Stops (declareStarted brought.steps health hook host).2 ∧
      (declareStarted brought.steps health hook host).2.startup = .success := by
  have before : OnlyStops (do
      Host.effect (Effect.changeHealth health (·.register .startup .startup))
      heed brought.steps .watched hook) :=
    (OnlyStops.effect _).bind fun _ => onlyStops_heed brought .watched hook
  have rest : ∀ hook, OnlyStops (do
      let hook ← heed brought.steps .declared hook
      Host.effect (Effect.refreshHealth health)
      heed brought.steps .refreshed hook) := fun hook =>
    (onlyStops_heed brought .declared hook).bind fun hook =>
      (OnlyStops.effect _).bind fun _ => onlyStops_heed brought .refreshed hook
  have hdeclared : ∀ host : Host,
      host.Stops { host with world := { host.world with startup := .success } } :=
    fun _ => Host.stops_of_eq rfl
  -- What is declared stays, as nothing that follows touches the status.
  exact ⟨(before.stops host).trans ((hdeclared _).trans ((rest _).stops _)), (rest _).startup _⟩

/-- **A host that has come up** has stopped modules at most, and shows that it is up. -/
theorem comeUp_spec (booted : List Hosted) (health : Ticket HealthService) (hook : ShutdownHook)
    (host : Host) :
    host.Stops (comeUp brought.steps booted health hook host).2 ∧
      (comeUp brought.steps booted health hook host).2.startup = .success := by
  let handOver : HostM ShutdownHook := do heed brought.steps .handedOver (← hook.arm booted)
  have before : OnlyStops handOver :=
    (hook.onlyStops_arm booted).bind fun hook => onlyStops_heed brought .handedOver hook
  have hdeclare := declareStarted_spec brought health (handOver host).1 (handOver host).2
  have hready : OnlyStops (Host.info ("EDC" ++ " ready")) :=
    .of_frames (quiet_steps.report _) (quiet_startup.report _)
  exact ⟨(before.stops host).trans (hdeclare.1.trans (hready.stops _)),
    (hready.startup _).trans hdeclare.2⟩

/-- A host has found modules, and has handed its hook out, so that the modules boot under the limits
on the host that is left. -/
def Hands (brought : Brought) (host : Host) (found : List Module) (limits : Limits)
    (handed : Host) : Prop :=
  ∃ prepared hook,
    (prepare brought.steps).on host = (.ok (found.map Hosted.fresh, limits), prepared) ∧
    brought.steps.install { limits } prepared = (hook, handed)

variable {brought} in
theorem Hands.undisturbed {host handed : Host} {found : List Module} {limits : Limits}
    (h : Hands brought host found limits handed) : host.world.Undisturbed handed.world := by
  obtain ⟨prepared, hook, hprepare, hinstall⟩ := h
  have hprepared := undisturbed_prepare brought host
  have hkeeps := keeps_install brought limits prepared
  rw [hprepare] at hprepared
  rw [hinstall] at hkeeps
  exact hprepared.trans hkeeps.undisturbed

/-- What bringing a host up comes to: there is nothing to boot, the boot or what follows it fails,
or the host is up. -/
inductive BringsUp (brought : Brought) (host : Host) :
    (Except BootError String × Option ShutdownHook) × Host → Prop where
  | unprepared {error : BootError} {after : Host}
      (undisturbed : host.world.Undisturbed after.world) :
      BringsUp brought host ((.error error, none), after)
  | refused {found : List Module} {limits : Limits} {handed after : Host} {error : BootError}
      {hook : ShutdownHook} (hands : Hands brought host found limits handed)
      (undisturbed : (Boot.outcome limits found handed).2.world.Undisturbed after.world) :
      BringsUp brought host ((.error error, some hook.disarm), after)
  | up {found : List Module} {limits : Limits} {handed after : Host} {name : String}
      {hook : ShutdownHook} {booted : List Hosted} (hands : Hands brought host found limits handed)
      (boots : (Boot.outcome limits found handed).1 = .ok booted)
      (stops : (Boot.outcome limits found handed).2.Stops after)
      (startup : after.startup = .success) :
      BringsUp brought host ((.ok name, some hook), after)

/-- **Bringing a host up**, end by end. -/
theorem bringsUp_bringUp (host : Host) : BringsUp brought host (bringUp brought.steps host) := by
  unfold bringUp
  rw [HostM.bind_apply, show (prepare brought.steps).run host = (prepare brought.steps).on host
    from rfl]
  have hprepared := undisturbed_prepare brought host
  rcases hp : (prepare brought.steps).on host with ⟨error | ⟨modules, limits⟩, prepared⟩
  · rw [hp] at hprepared
    exact .unprepared hprepared
  · obtain ⟨found, rfl⟩ := (findsFresh brought).exists_found hp
    have hkeeps := keeps_install brought limits prepared
    dsimp only
    rw [HostM.bind_apply]
    rcases hi : brought.steps.install { limits } prepared with ⟨hook, handed⟩
    rw [hi] at hkeeps
    have hands : Hands brought host found limits handed := ⟨prepared, hook, hp, hi⟩
    obtain ⟨hafter, hbooted⟩ := bootModules_on brought limits found handed
    have hheed := keeps_heed brought .booting hkeeps.unarmed (Boot.outcome limits found handed).2
    dsimp only
    rw [HostM.bind_apply, show (bootModules brought.steps limits (found.map .fresh)).run handed =
      (bootModules brought.steps limits (found.map .fresh)).on handed from rfl]
    rcases hb : (bootModules brought.steps limits (found.map .fresh)).on handed with
      ⟨error | ⟨booted, health⟩, after⟩
    -- Either way the requests that came by then have stopped nothing.
    · rw [hb] at hafter
      obtain rfl : after = (Boot.outcome limits found handed).2 := hafter
      exact .refused hands hheed.undisturbed
    · rw [hb] at hafter hbooted
      obtain rfl : after = (Boot.outcome limits found handed).2 := hafter
      have hup := comeUp_spec brought booted health
        (heed brought.steps .booting hook (Boot.outcome limits found handed).2).1
        (heed brought.steps .booting hook (Boot.outcome limits found handed).2).2
      exact .up hands (hbooted booted health rfl)
        ((Host.stops_of_eq hheed.undisturbed.steps).trans hup.1) hup.2

end Launch

end ServiceHost
