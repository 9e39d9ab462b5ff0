import ServiceHost.Proofs.InProcess.Given

/-!
# Mocks — a pinned service is seen everywhere

A program brings services to its host to stand in for those that modules provide. They are pinned
before the modules boot, and a pin gives way to nothing but another pin, to a service put straight
into the registry and to its clearing (`ContextOp.Overrides`). So where no module does such a thing
(`Module.Spares`), **the program's own service is what is found under its capability on every host
of the boot**: where slots are filled, at each request that a module makes, and when the host is up
(`Boot.Sees`, `InProcess.Shows`). Together with what registrations come to in any context, this is
`pinned_services_win`. A pin of its own is all that a module needs to replace what the program has
brought, with no warning and although a pin is meant to stay (`replaced_clockPinned`).
-/

set_option autoImplicit false

namespace ServiceHost

/-! ## Requests of a program -/

section Programs

variable {Op : Type} {Answer : Op → Type} {α β σ : Type} {handler : (op : Op) → σ → Answer op × σ}
  {p : Op → Prop}

/-- A program that is run on one state makes the request on another. -/
inductive Program.Asks (handler : (op : Op) → σ → Answer op × σ) :
    Program Op Answer α → σ → Op → σ → Prop where
  | first {op : Op} {next : Answer op → Program Op Answer α} {state : σ} :
      Asks handler (.ask op next) state op state
  | later {op other : Op} {next : Answer op → Program Op Answer α} {state asking : σ}
      (rest : Asks handler (next (handler op state).1) (handler op state).2 other asking) :
      Asks handler (.ask op next) state other asking

/-- What every request keeps holds at every request. -/
theorem Program.Asks.invariant {I : σ → Prop}
    (keeps : ∀ op state, p op → I state → I (handler op state).2)
    {program : Program Op Answer α} {state asking : σ} {op : Op}
    (h : program.Asks handler state op asking) (all : program.AllOps p) (start : I state) :
    I asking := by
  induction h with
  | first => exact start
  | later _ ih => exact ih (all.2 _) (keeps _ _ all.1 start)

theorem Program.AllOps.bind {program : Program Op Answer α} {rest : α → Program Op Answer β}
    (h : program.AllOps p) (hrest : ∀ a, (rest a).AllOps p) : (program >>= rest).AllOps p := by
  induction program with
  | done value => exact hrest value
  | ask op next ih => exact ⟨h.1, fun answer => ih answer (h.2 answer)⟩

end Programs

theorem Effect.allOps_inContext {α : Type} {p : ContextOp → Prop} (h : ∀ op, p (.world op))
    (effect : Effect α) : effect.inContext.AllOps p := by
  induction effect with
  | done value => trivial
  | ask op next ih => exact ⟨h op, ih⟩

/-- The core services only look around, reach the world and register plainly. -/
theorem CoreServices.allOps_setUp {p : ContextOp → Prop} (hview : p .view)
    (hworld : ∀ op, p (.world op))
    (hregister : ∀ capability service, p (.register capability service)) (memory : Memory) :
    (CoreServices.module.setUp memory).AllOps p := by
  have hlook : ContextEffect.view.AllOps p := ⟨hview, fun _ => trivial⟩
  refine hlook.bind fun view => ?_
  cases CoreServices.periods view.settings with
  | error error => exact trivial
  | ok periods =>
    refine (Effect.allOps_inContext hworld (Effect.newHealth { periods })).bind fun ticket => ?_
    exact ⟨hregister _ _, fun _ => trivial⟩

/-! ## What a pin gives way to -/

/-- The request may replace what is pinned under a capability. -/
def ContextOp.Overrides (op : ContextOp) (capability : String) : Prop :=
  match op with
  | .pin touched _ | .insert touched _ => touched = capability
  | .clear => True
  | _ => False

theorem frames_pinnedService?_perform {op : ContextOp} {capability : String}
    (h : ¬ op.Overrides capability) :
    Frames (Host.pinnedService? capability) (Host.perform op) := by
  have q := quiet_pinnedService? capability
  have hr := frames_pinnedService?_register capability
  cases op with
  | register touched service => exact hr touched service
  | loadVault => exact q.loadVault (hr _)
  | pin touched service =>
    have hne : touched ≠ capability := h
    intro host
    show (if capability ∈ touched :: host.context.pinned then
      (Host.pin touched service host).2.find? capability else none) = host.pinnedService? capability
    rw [Host.find?_pin, if_neg hne, Host.pinnedService?]
    simp [hne.symm]
  | insert touched service =>
    have hne : touched ≠ capability := h
    intro host
    show (if capability ∈ host.context.pinned then
      (Host.insert touched service host).2.find? capability else none) =
        host.pinnedService? capability
    rw [Host.find?_insert, if_neg hne, Host.pinnedService?]
  | clear => exact absurd trivial h
  | _ =>
    exact q.perform (fun _ ht => ht.elim) (fun _ ht => ht.elim) (fun _ ht => ht.elim)
      (fun he => by cases he)

/-- Setting the module up leaves alone what is pinned under the capability. -/
def Module.Spares (module : Module) (capability : String) : Prop :=
  ∀ memory, (module.setUp memory).AllOps (¬ ·.Overrides capability)

namespace Boot

variable {limits : Limits} {modules : List Module} {host : Host} {capability : String}

theorem Act.pinnedService?_call {act : Act} {hosted : Hosted}
    (h : hosted.module.Spares capability) (host : Host) :
    ((act.call limits hosted).on host).2.pinnedService? capability =
      host.pinnedService? capability := by
  rw [act.view_call (quiet_pinnedService? capability).calm]
  cases act with
  | setUp _ =>
    exact frames_contextEffect (fun _ => frames_pinnedService?_perform) (h hosted.memory) _
  | _ => rfl

theorem Performs.pinnedService?_eq {state final : State} {acts : List Act}
    (h : Performs limits state acts final)
    (hspares : ∀ position module, state.moduleAt position = some module →
      module.Spares capability) :
    final.host.pinnedService? capability = state.host.pinnedService? capability := by
  refine h.host_invariant
    (p := (·.pinnedService? capability = state.host.pinnedService? capability)) ?_ rfl
  intro act _ hosted hm host hh
  exact (Act.pinnedService?_call (hspares _ _ hm) host).trans hh

/-- What is pinned when a boot begins is pinned at each of its acts. -/
theorem Reaches.pinnedService?_eq {act : Act} {state : State}
    (h : Reaches limits modules host act state)
    (hspares : ∀ module ∈ modules, module.Spares capability) :
    state.host.pinnedService? capability = host.pinnedService? capability := by
  obtain ⟨_, _, _, _, _, _, _, hrun⟩ := h
  exact hrun.pinnedService?_eq fun _ module hm => hspares module (State.mem_of_moduleAt_start hm)

/-- **A service is seen everywhere in a boot**: on the host of each act, in every slot for the
capability once its module is injected, at every request that a module makes while it is set up, and
in the end. -/
structure Sees (limits : Limits) (modules : List Module) (host : Host) (capability : String)
    (service : Service) : Prop where
  reached : ∀ act state, Reaches limits modules host act state →
    state.host.find? capability = some service
  injected : ∀ position state next hosted, Reaches limits modules host (.inject position) state →
    Takes limits state (.inject position) next → next.modules[position]? = some hosted →
    ∀ point ∈ hosted.module.points, point.capability = capability →
      (∀ other ∈ hosted.module.points, other.field = point.field → other.capability = capability) →
      hosted.memory.find? point.field = some service
  asked : ∀ position state hosted, Reaches limits modules host (.setUp position) state →
    state.modules[position]? = some hosted →
    ∀ op asking, (hosted.module.setUp hosted.memory).Asks Host.perform
        (state.host.enter (.call .setUp) hosted.name) op asking →
      asking.find? capability = some service
  ended : (outcome limits modules host).2.find? capability = some service

/-- **Where all modules spare a pinned service, it is seen everywhere.** -/
theorem sees_of_spares {service : Service}
    (hpinned : host.pinnedService? capability = some service)
    (hspares : ∀ module ∈ modules, module.Spares capability) :
    Sees limits modules host capability service where
  reached := by
    intro act state hreach
    exact Host.find?_of_pinnedService? ((hreach.pinnedService?_eq hspares).trans hpinned)
  injected := by
    intro position state next hosted hreach htake hat point hpoint hcapability hsame
    obtain ⟨before, after, hbefore, hafter, hmodule, _, _⟩ := htake.exists_after
    obtain ⟨injected, hinjected, hmemory, _⟩ := htake.memory_of_inject hbefore
    cases hat.symm.trans hafter
    cases hat.symm.trans hinjected
    have hfind : state.host.find? capability = some service :=
      Host.find?_of_pinnedService? ((hreach.pinnedService?_eq hspares).trans hpinned)
    rw [hmodule] at hpoint hsame
    rw [hmemory]
    subst hcapability
    exact Injection.find?_given hpoint hsame hfind
  asked := by
    intro position state hosted hreach hat op asking hasks
    have hmodule : hosted.module ∈ modules := by
      have hm := hreach.moduleAt_eq position
      rw [State.moduleAt, hat] at hm
      exact List.mem_of_getElem? hm.symm
    -- The step is written down first, and then each request leaves the pin alone.
    have hstart : (state.host.enter (.call .setUp) hosted.name).pinnedService? capability =
        some service := (hreach.pinnedService?_eq hspares).trans hpinned
    refine Host.find?_of_pinnedService? (hasks.invariant
      (I := (·.pinnedService? capability = some service)) ?_
      (hspares _ hmodule hosted.memory) hstart)
    intro op mid hop hkept
    exact (frames_pinnedService?_perform hop mid).trans hkept
  ended := by
    refine Host.find?_of_pinnedService? (outcome_invariant
      (p := (·.pinnedService? capability = some service)) ?_ hpinned)
    intro act hosted hmem host hkept
    exact (Act.pinnedService?_call (hspares _ hmem) host).trans hkept

end Boot

namespace InProcess

variable {host : InProcess} {world : World}

/-- A launch that goes through has booted, and leaves what the boot left registered. -/
theorem exists_boots_of_launch_ok (hdown : host.handle? = none)
    (hok : (host.launch world).1.1 = .ok ()) :
    ∃ found limits mid, host.Boots world found limits mid ∧
      ∀ capability type, (host.launch world).1.2.get capability type =
        (Boot.outcome limits found mid).2.context.registry.get capability type := by
  rw [launch_of_down host world hdown, launch_eq] at hok ⊢
  cases ho : host.opened world with
  | error failed =>
    rw [ho] at hok
    cases hok
  | ok start =>
    rw [ho] at hok
    dsimp only at hok ⊢
    rw [outcome_answer] at hok
    have hblind : StartupBlind fun host => host.context.registry := fun _ _ => rfl
    rcases host.view_bringUp quiet_registry hblind start with
      ⟨error, _, _, herror, _⟩ | ⟨found, limits, mid, hprepare, hview, _⟩
    · rw [herror] at hok
      cases hok
    · refine ⟨found, limits, mid, ⟨start, ho, hprepare⟩, fun capability type => ?_⟩
      rw [outcome_answer, ← hview]
      cases hname : (Launch.bringUp host.steps start).1.1 with
      | error error =>
        rw [hname] at hok
        cases hok
      | ok name => rfl

/-- **A service is what a launch shows under a capability**: on its way up, and to whoever asks when
the host is up. -/
structure Shows (host : InProcess) (world : World) (capability : String) (service : Service) :
    Prop where
  booting : ∀ found limits mid, host.Boots world found limits mid →
    Boot.Sees limits found mid capability service
  up : (host.launch world).1.1 = .ok () → ∀ type,
    (host.launch world).1.2.get capability type =
      if service.type = type then .ok service
      else .error (.typeMismatch capability type.name service.type.name)

theorem shows_of_spares {capability : String} {service : Service} (hdown : host.handle? = none)
    (hlast : lastMock? capability host.services = some service)
    (hspares : ∀ found limits mid, host.Boots world found limits mid →
      ∀ module ∈ found, module.Spares capability) :
    host.Shows world capability service where
  booting := by
    intro found limits mid hboots
    exact Boot.sees_of_spares (hboots.pinnedService?_eq.trans hlast)
      (hspares found limits mid hboots)
  up := by
    intro hok type
    obtain ⟨found, limits, mid, hboots, hget⟩ := exists_boots_of_launch_ok hdown hok
    have hsees : Boot.Sees limits found mid capability service :=
      Boot.sees_of_spares (hboots.pinnedService?_eq.trans hlast) (hspares found limits mid hboots)
    rw [hget, Registry.get, show (Boot.outcome limits found mid).2.context.registry.find?
      capability = some service from hsees.ended]

/-! ## Pinned services -/

open Registration (held? warning? built)

/-- **Pinned services win everywhere.** In a context the last pin of a capability wins, and else
the last registration of all; a plain registration that a pin keeps out, or that replaces a service,
is worth one warning, and no other is worth any. So the first launch of a program shows under each
capability the service that the program brought last for it, where no module pins one of its own or
reaches past registering. With a vault brought, it does nothing to get a vault, and where no module
asks for one, none was looked up in the end. -/
theorem pinned_services_win (typeTable : Ticket TypeTable) (monitor : Monitor)
    (locator delegate : Locator) (world later : World) (registrations : List Registration)
    (requests : List Request) (host : InProcess) (hfirst : .launch ∉ requests)
    (hafter : after requests (new delegate, world) = (host, later)) :
    (∀ capability,
      ((Host.new world typeTable monitor locator).registering registrations).find? capability =
        held? capability (built typeTable monitor ++ registrations)) ∧
    (∀ before registration rest, registrations = before ++ registration :: rest →
      (registration.perform
          ((Host.new world typeTable monitor locator).registering before)).2.world =
        ((Host.new world typeTable monitor locator).registering before).world.warned monitor
          (warning? (built typeTable monitor ++ before) registration)) ∧
    host.OnlyBoots later ∧
    (∀ capability mock, lastMock? capability (mocks requests) = some mock →
      (∀ module, Given delegate requests module → module.Spares capability) →
      host.Shows later capability mock) ∧
    ((lastMock? Capability.vault (mocks requests)).isSome →
      ServiceHost.launch (host.stepsLoading (pure ())) later =
        ServiceHost.launch host.steps later ∧
      ((∀ module, Given delegate requests module → module.Seeks (· ≠ .vault)) →
        ∀ found limits mid, host.Boots later found limits mid →
          (Boot.outcome limits found mid).2.SoughtFrom (· ≠ .vault)
            (overlaid delegate (extensions requests)))) := by
  obtain ⟨hdown, hservices, hlocator⟩ := after_of_not_launched delegate world requests hfirst
  have hgiven : ∀ found limits mid, host.Boots later found limits mid → ∀ module ∈ found,
      Given delegate requests module := by
    intro found limits mid hboots module hmem
    rw [show host = (after requests (new delegate, world)).1 by rw [hafter],
      show later = (after requests (new delegate, world)).2 by rw [hafter]] at hboots
    exact Boots.given hfirst hboots hmem
  rw [hafter] at hdown hservices hlocator
  refine ⟨Host.find?_registering_new world typeTable monitor locator registrations, ?_,
    onlyBoots host later hdown, ?_, ?_⟩
  · intro before registration rest _
    exact Host.world_perform_registering_new world typeTable monitor locator before registration
  · intro capability mock hmock hspares
    refine shows_of_spares hdown ((congrArg _ hservices).trans hmock) ?_
    intro found limits mid hboots module hmem
    exact hspares module (hgiven found limits mid hboots module hmem)
  · intro hvault
    obtain ⟨vault, hvault⟩ := Option.isSome_iff_exists.mp hvault
    have hlast : lastMock? Capability.vault host.services = some vault :=
      (congrArg _ hservices).trans hvault
    refine ⟨launch_of_vault_pinned hlast, ?_⟩
    intro hseeks found limits mid hboots
    have hsource : host.source = overlaid delegate (extensions requests) := by
      rw [source, hlocator, Option.getD_some]
    rw [← hsource]
    refine hboots.outcome_soughtFrom (by decide) (by decide) ?_ (by decide) ?_
    · intro hnone
      rw [hlast] at hnone
      cases hnone
    · intro module hmem
      exact hseeks module (hgiven found limits mid hboots module hmem)

/-- A program brings a clock and a vault, and a module that provides a clock as well. -/
def clockMocked : List Request :=
  [.pin "test:clock" (.byte 1), .pin Capability.vault (.vault ⟨0⟩),
    .extend (.service CoreServices.module),
    .extend (.service (.publisher "clock" "test:clock" (.byte 2)))]

theorem eq_of_given_clockMocked {module : Module} (h : Given (.manifest []) clockMocked module) :
    module = CoreServices.module ∨ module = .publisher "clock" "test:clock" (.byte 2) := by
  have hbrought := h.resolve_right (not_offers_nil module)
  rw [show extensions clockMocked = [.service CoreServices.module,
    .service (.publisher "clock" "test:clock" (.byte 2))] from rfl] at hbrought
  simpa using hbrought

/-- The launch goes through, and the clock of the program is the one that is found, on the way and
in the end. -/
theorem pinned_services_win_clockMocked :
    .launch ∉ clockMocked ∧
    ((alone clockMocked).1.launch (alone clockMocked).2).1.1 = .ok () ∧
    (alone clockMocked).1.Shows (alone clockMocked).2 "test:clock" (.byte 1) ∧
    ((alone clockMocked).1.launch (alone clockMocked).2).1.2.get "test:clock" .byte =
      .ok (.byte 1) ∧
    ∀ found limits mid, (alone clockMocked).1.Boots (alone clockMocked).2 found limits mid →
      (Boot.outcome limits found mid).2.SoughtFrom (· ≠ .vault)
        (overlaid (.manifest []) (extensions clockMocked)) := by
  have hfirst : .launch ∉ clockMocked := by simp [clockMocked]
  have hok : ((alone clockMocked).1.launch (alone clockMocked).2).1.1 = .ok () := by decide +kernel
  obtain ⟨_, _, _, hshows, hvault⟩ := pinned_services_win ⟨0⟩ .log (.manifest []) (.manifest []) {}
    (alone clockMocked).2 [] clockMocked (alone clockMocked).1 hfirst rfl
  have hclock : (alone clockMocked).1.Shows (alone clockMocked).2 "test:clock" (.byte 1) := by
    refine hshows "test:clock" (.byte 1) rfl ?_
    intro module hgiven
    rcases eq_of_given_clockMocked hgiven with rfl | rfl
    · exact CoreServices.allOps_setUp id (fun _ => id) fun _ _ => id
    · exact fun _ => ⟨id, fun _ => trivial⟩
  refine ⟨hfirst, hok, hclock, (hclock.up hok .byte).trans (if_pos rfl), (hvault rfl).2 ?_⟩
  intro module hgiven
  rcases eq_of_given_clockMocked hgiven with rfl | rfl
  · exact CoreServices.allOps_setUp Locator.lookUp_nil (fun _ => Locator.lookUp_nil)
      fun _ _ => Locator.lookUp_nil
  · exact fun _ => ⟨Locator.lookUp_nil, fun _ => trivial⟩

/-- A program brings a clock, and a module that pins one of its own. -/
def clockPinned : List Request :=
  [.pin "test:clock" (.byte 1), .extend (.service CoreServices.module),
    .extend (.service {
      name := "clock"
      kind := "clock"
      setUp := fun memory => do
        ContextEffect.pin "test:clock" (.byte 2)
        return .ok memory })]

/-- The byte that is registered. -/
def byte? : Service → Option UInt8
  | .byte value => some value
  | _ => none

/-- **A later pin replaces what a program has brought**, which nothing but its order tells apart: the
clock of the module is the one that is found. -/
theorem replaced_clockPinned :
    .launch ∉ clockPinned ∧ lastMock? "test:clock" (mocks clockPinned) = some (.byte 1) ∧
    ((alone clockPinned).1.launch (alone clockPinned).2).1.1 = .ok () ∧
    (((alone clockPinned).1.launch (alone clockPinned).2).1.2.get "test:clock" .byte).map byte? =
      .ok (some 2) := by
  exact ⟨by simp [clockPinned], rfl, by decide +kernel, by decide +kernel⟩

end InProcess

end ServiceHost
