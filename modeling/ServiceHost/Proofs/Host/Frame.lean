import ServiceHost.Context.Basic

/-!
# Frames — what a host action leaves alone

A boot hands its host to code that it does not know, so what can be said of a boot is what *no*
such code can change. `Frames view action` says that the action leaves a view of the host as it
is. It is kept by sequencing (`Frames.bind`, and `Frames.bootBind` where the action may fail), so
it is proved once for each thing a host does, and then for any program by
`Program.run_invariant`.

Two views matter here:

* `Host.steps`, the steps of module lives in the journal: **nobody but the host itself writes
  them**, so a module can neither fake a step nor hide one (`frames_steps_contextEffect`);
* what the registry has under a capability: **only the requests that touch the capability change
  it** (`frames_find?_perform`).

Everything else that a host does leaves both of them alone; such a view is `Quiet`.
-/

set_option autoImplicit false

namespace ServiceHost

/-- What follows an action runs on the host after it. -/
theorem HostM.bind_apply {α β : Type} (action : HostM α) (rest : α → HostM β) (host : Host) :
    (action >>= rest) host = rest (action host).1 (action host).2 := rfl

/-- What an action that may fail answers on a host, and the host after it. -/
def BootM.on {α : Type} (action : BootM α) (host : Host) : Except BootError α × Host :=
  action.run host

namespace BootM

variable {α β : Type}

@[simp] theorem on_pure (a : α) (host : Host) : BootM.on (pure a : BootM α) host = (.ok a, host) :=
  rfl

@[simp] theorem on_throw (error : BootError) (host : Host) :
    BootM.on (throw error : BootM α) host = (.error error, host) := rfl

@[simp] theorem on_lift (action : HostM α) (host : Host) :
    BootM.on (liftM action : BootM α) host = (.ok (action host).1, (action host).2) := rfl

@[simp] theorem on_get (host : Host) :
    BootM.on (MonadState.get : BootM Host) host = (.ok host, host) := rfl

/-- What follows an action runs on the host after it, unless the action failed. -/
@[simp] theorem on_bind (action : BootM α) (rest : α → BootM β) (host : Host) :
    BootM.on (action >>= rest) host =
      match BootM.on action host with
      | (.ok a, host) => BootM.on (rest a) host
      | (.error error, host) => (.error error, host) := by
  show (match (action : StateM Host (Except BootError α)) host with
    | (answer, host) => ExceptT.bindCont rest answer host) =
      match (action : StateM Host (Except BootError α)) host with
      | (.ok a, host) => BootM.on (rest a) host
      | (.error error, host) => (.error error, host)
  rcases (action : StateM Host (Except BootError α)) host with ⟨error | a, host⟩
  · rfl
  · rfl

/-- An action that goes through has gone through in each of its parts. -/
theorem exists_of_on_bind {action : BootM α} {rest : α → BootM β} {b : β} {host after : Host}
    (h : BootM.on (action >>= rest) host = (.ok b, after)) :
    ∃ a mid, BootM.on action host = (.ok a, mid) ∧ BootM.on (rest a) mid = (.ok b, after) := by
  rw [on_bind] at h
  rcases hc : BootM.on action host with ⟨error | a, mid⟩
  · rw [hc] at h
    cases h
  · rw [hc] at h
    exact ⟨a, mid, rfl, h⟩

end BootM

/-- The action leaves a view of the host as it is. -/
def Frames {α β : Type} (view : Host → β) (action : HostM α) : Prop :=
  ∀ host, view (action host).2 = view host

namespace Frames

variable {α β γ : Type} {view : Host → β}

theorem pure (a : α) : Frames view (Pure.pure a : HostM α) := fun _ => rfl

theorem bind {action : HostM α} {rest : α → HostM γ} (h : Frames view action)
    (hr : ∀ a, Frames view (rest a)) : Frames view (action >>= rest) := fun host =>
  (hr (action host).1 (action host).2).trans (h host)

theorem get : Frames view (MonadState.get : HostM Host) := fun _ => rfl

/-- An action that may fail frames what it frames whether it fails or not. -/
theorem bootBind {action : BootM α} {rest : α → BootM γ} (h : Frames view action.run)
    (hr : ∀ a, Frames view (rest a).run) : Frames view (action >>= rest).run := by
  intro host
  show view (BootM.on (action >>= rest) host).2 = view host
  rw [BootM.on_bind]
  have hh : view (BootM.on action host).2 = view host := h host
  -- A failure leaves the host where the first action left it.
  rcases hc : BootM.on action host with ⟨error | a, after⟩
  · rw [hc] at hh
    exact hh
  · rw [hc] at hh
    exact (hr a after).trans hh

theorem bootLift {action : HostM α} (h : Frames view action) :
    Frames view (liftM action : BootM α).run := fun host => h host

theorem bootPure (a : α) : Frames view (Pure.pure a : BootM α).run := fun _ => rfl

theorem bootThrow (error : BootError) : Frames view (throw error : BootM α).run := fun _ => rfl

end Frames

/-! ## Steps of module lives -/

/-- The step that an event records. -/
def Event.step? : Event → Option (Step × String)
  | .stepped step module => some (step, module)
  | _ => none

/-- The steps of module lives that the journal records, in order. -/
def World.steps (world : World) : List (Step × String) :=
  world.journal.filterMap Event.step?

/-- The steps of module lives that a host has taken, in order. -/
def Host.steps (host : Host) : List (Step × String) :=
  host.world.steps

namespace World

theorem steps_write (world : World) (event : Event) :
    (world.write event).steps = world.steps ++ event.step?.toList := by
  cases h : event.step? <;> simp [steps, write, h]

theorem steps_report (world : World) (monitor : Monitor) (report : Report) :
    (world.report monitor report).steps = world.steps := by
  have hnone : ((monitor.deliveries report).map Event.delivered).filterMap Event.step? = [] := by
    simp [List.filterMap_eq_nil_iff, Event.step?]
  simp [steps, World.report, hnone]

/-- No request to the world writes a step. -/
theorem steps_perform (op : WorldOp) (world : World) : (world.perform op).2.steps = world.steps := by
  cases op with
  | report monitor report => exact steps_report world monitor report
  | note label details => exact (steps_write world (.noted label details)).trans (List.append_nil _)
  | _ => rfl

end World

/-! ## What a host does -/

@[simp] theorem Host.context_report (report : Report) (host : Host) :
    (Host.report report host).2.context = host.context := rfl

@[simp] theorem Host.context_effect {α : Type} (effect : Effect α) (host : Host) :
    (Host.effect effect host).2.context = host.context := rfl

theorem Host.steps_write (event : Event) (host : Host) :
    (Host.write event host).2.steps = host.steps ++ event.step?.toList :=
  World.steps_write host.world event

theorem frames_steps_write {event : Event} (h : event.step? = none) :
    Frames Host.steps (Host.write event) := fun host => by
  rw [Host.steps_write, h]
  exact List.append_nil _

theorem frames_steps_report (report : Report) : Frames Host.steps (Host.report report) :=
  fun host => World.steps_report host.world host.context.monitor report

theorem frames_steps_changeContext (change : Context → Context) :
    Frames Host.steps (Host.changeContext change) := fun _ => rfl

/-- No effect writes a step, whatever it does. -/
theorem frames_steps_effect {α : Type} (effect : Effect α) :
    Frames Host.steps (Host.effect effect) := fun host =>
  @Program.run_invariant _ _ _ _ World.perform (fun _ => True) (·.steps = host.steps)
    (fun op world _ h => (World.steps_perform op world).trans h)
    effect (Program.allOps_of_forall (fun _ => trivial) effect) host.world rfl

/-! ## Loading the parts of a host -/

/-- A view that nobody can change who has the world and no context, but by steps of module lives. -/
structure Calm {β : Type} (view : Host → β) : Prop where
  report : ∀ report : Report, Frames view (Host.report report)
  effect : ∀ {α : Type} (effect : Effect α), Frames view (Host.effect effect)
  write : ∀ event : Event, event.step? = none → Frames view (Host.write event)

namespace Calm

variable {β : Type} {view : Host → β}

/-- What can be told from a calm view is calm too. -/
theorem comp {γ : Type} (q : Calm view) (f : β → γ) : Calm fun host => f (view host) where
  report report := fun host => congrArg f (q.report report host)
  effect effect := fun host => congrArg f (q.effect effect host)
  write event h := fun host => congrArg f (q.write event h host)

/-- A plain registration shows no more than that the service is put into the registry. -/
theorem register (q : Calm view) {capability : String} {service : Service}
    (h : Frames view (Host.insert capability service)) :
    Frames view (Host.register capability service) := by
  refine Frames.get.bind fun host => ?_
  split
  · exact q.report _
  · refine h.bind fun previous => ?_
    cases previous with
    | none => exact Frames.pure _
    | some previous => exact q.report _

/-- What looking up does not show, loading the settings of an extension does not show. -/
theorem extensionSettings (q : Calm view)
    (hl : ∀ {α : Type} (question : Locator → Except DiscoveryError α × Locator),
      Frames view (Host.locate question)) : Frames view Host.extensionSettings.run := by
  refine (Frames.bootLift (hl _)).bootBind fun found => ?_
  rcases found with error | _ | extension
  · exact Frames.bootThrow _
  · exact Frames.bootPure _
  · refine (Frames.bootLift Frames.get).bootBind fun host =>
      (Frames.bootLift (q.effect _)).bootBind fun answer => ?_
    cases answer with
    | error error => exact Frames.bootThrow _
    | ok settings => exact (Frames.bootLift (q.report _)).bootBind fun _ => Frames.bootPure _

end Calm

theorem calm_context : Calm Host.context where
  report _ := fun _ => rfl
  effect _ := fun _ => rfl
  write _ _ := fun _ => rfl

/-- A view that only registrations and steps of module lives can change. -/
structure Quiet {β : Type} (view : Host → β) : Prop where
  locate : ∀ {α : Type} (question : Locator → Except DiscoveryError α × Locator),
    Frames view (Host.locate question)
  report : ∀ report : Report, Frames view (Host.report report)
  effect : ∀ {α : Type} (effect : Effect α), Frames view (Host.effect effect)
  write : ∀ event : Event, event.step? = none → Frames view (Host.write event)
  changeContext : ∀ change : Context → Context,
    (∀ context, (change context).registry = context.registry ∧
      (change context).pinned = context.pinned) → Frames view (Host.changeContext change)

namespace Quiet

variable {β : Type} {view : Host → β}

theorem calm (q : Quiet view) : Calm view where
  report := q.report
  effect := q.effect
  write := q.write

/-- What can be told from a quiet view is quiet too. -/
theorem comp {γ : Type} (q : Quiet view) (f : β → γ) : Quiet fun host => f (view host) where
  locate question := fun host => congrArg f (q.locate question host)
  report report := fun host => congrArg f (q.report report host)
  effect effect := fun host => congrArg f (q.effect effect host)
  write event h := fun host => congrArg f (q.write event h host)
  changeContext change h := fun host => congrArg f (q.changeContext change h host)

theorem extensionSettings (q : Quiet view) : Frames view Host.extensionSettings.run :=
  q.calm.extensionSettings q.locate

theorem environmentLayer (q : Quiet view) : Frames view Host.environmentLayer.run := by
  refine (Frames.bootLift Frames.get).bootBind fun host => ?_
  cases Settings.environmentLayer host.world.surroundings.environment with
  | ok layer => exact Frames.bootPure _
  | error crash => exact (Frames.bootLift (q.write (.crashed crash) rfl)).bootBind fun _ => Frames.bootThrow _

theorem loadSettings (q : Quiet view) : Frames view Host.loadSettings.run := by
  refine q.extensionSettings.bootBind fun extension => q.environmentLayer.bootBind fun environment =>
    (Frames.bootLift Frames.get).bootBind fun host => ?_
  dsimp only
  split
  · exact Frames.bootThrow _
  · exact Frames.bootLift (q.changeContext _ fun _ => ⟨rfl, rfl⟩)

theorem findVault (q : Quiet view) : Frames view Host.findVault.run := by
  refine (Frames.bootLift (q.locate _)).bootBind fun found => ?_
  rcases found with error | _ | extension
  · exact Frames.bootThrow _
  · exact (Frames.bootLift (q.report _)).bootBind fun _ => Frames.bootLift (q.effect _)
  · refine (Frames.bootLift Frames.get).bootBind fun host =>
      (Frames.bootLift (q.effect _)).bootBind fun answer => ?_
    cases answer with
    | error error => exact Frames.bootThrow _
    | ok _ => exact (Frames.bootLift (q.report _)).bootBind fun _ => Frames.bootLift (q.effect _)

/-- Loading the vault registers it, and changes nothing else that can be seen. -/
theorem loadVault (q : Quiet view)
    (hr : ∀ service, Frames view (Host.register Capability.vault service)) :
    Frames view Host.loadVault.run :=
  q.findVault.bootBind fun _ => Frames.bootLift (hr _)

theorem discover (q : Quiet view) : Frames view Host.discover :=
  (q.locate _).bind fun _ => Frames.pure _

end Quiet

/-! ## Requests of a module -/

/-- A request that may change what the registry has under a capability. -/
def ContextOp.Touches (op : ContextOp) (capability : String) : Prop :=
  match op with
  | .register touched _ | .pin touched _ | .insert touched _ => touched = capability
  | .loadVault => Capability.vault = capability
  | .clear => True
  | _ => False

/-- What frames the registrations under the capabilities that a request touches frames the
answer to the request. -/
theorem Quiet.perform {β : Type} {view : Host → β} (q : Quiet view) {op : ContextOp}
    (hr : ∀ touched, op.Touches touched → ∀ service, Frames view (Host.register touched service))
    (hp : ∀ touched, op.Touches touched → ∀ service, Frames view (Host.pin touched service))
    (hi : ∀ touched, op.Touches touched → ∀ service, Frames view (Host.insert touched service))
    (hc : op = .clear → Frames view Host.clear) : Frames view (Host.perform op) := by
  cases op with
  | world op => exact q.effect (Program.request op)
  | register touched service => exact hr touched rfl service
  | pin touched service => exact hp touched rfl service
  | insert touched service => exact hi touched rfl service
  | clear => exact hc rfl
  | view => exact fun _ => rfl
  | setOverrides settings => exact q.changeContext _ fun _ => ⟨rfl, rfl⟩
  | loadSettings => exact q.loadSettings
  | loadVault => exact q.loadVault (hr Capability.vault rfl)
  | loadMonitor => exact q.locate _
  | discover => exact q.discover.bind fun _ => Frames.pure _

/-- What every request of a program frames, the program frames. -/
theorem frames_contextEffect {α β : Type} {view : Host → β} {p : ContextOp → Prop}
    (hop : ∀ op, p op → Frames view (Host.perform op)) {effect : ContextEffect α}
    (hall : effect.AllOps p) : Frames view (Host.contextEffect effect) := fun host =>
  @Program.run_invariant _ _ _ _ Host.perform p (view · = view host)
    (fun op after hp h => (hop op hp after).trans h) effect hall host rfl

/-! ### Steps -/

theorem quiet_steps : Quiet Host.steps where
  locate _ := fun _ => rfl
  report := frames_steps_report
  effect := frames_steps_effect
  write _ h := frames_steps_write h
  changeContext change _ := frames_steps_changeContext change

theorem frames_steps_insert (capability : String) (service : Service) :
    Frames Host.steps (Host.insert capability service) := fun _ => rfl

theorem frames_steps_register (capability : String) (service : Service) :
    Frames Host.steps (Host.register capability service) :=
  quiet_steps.calm.register (frames_steps_insert capability service)

/-- **No code that is given the context writes a step**, whatever it asks for. -/
theorem frames_steps_contextEffect {α : Type} (effect : ContextEffect α) :
    Frames Host.steps (Host.contextEffect effect) :=
  frames_contextEffect (p := fun _ => True)
    (fun _ _ => quiet_steps.perform (fun touched _ => frames_steps_register touched)
      (fun _ _ _ => frames_steps_changeContext _) (fun touched _ => frames_steps_insert touched)
      (fun _ => frames_steps_changeContext _))
    (Program.allOps_of_forall (fun _ => trivial) effect)

/-! ### Services -/

/-- The service that a host has under a capability. -/
def Host.find? (capability : String) (host : Host) : Option Service :=
  host.context.registry.find? capability

theorem quiet_registry : Quiet fun host => host.context.registry where
  locate _ := fun _ => rfl
  report _ := fun _ => rfl
  effect _ := fun _ => rfl
  write _ _ := fun _ => rfl
  changeContext _ h := fun host => (h host.context).1

theorem quiet_find? (capability : String) : Quiet (Host.find? capability) :=
  quiet_registry.comp (·.find? capability)

theorem Host.find?_insert (touched : String) (service : Service) (capability : String)
    (host : Host) : (Host.insert touched service host).2.find? capability =
      if touched = capability then some service else host.find? capability :=
  Registry.find?_insert host.context.registry touched service capability

theorem Host.find?_pin (touched : String) (service : Service) (capability : String)
    (host : Host) : (Host.pin touched service host).2.find? capability =
      if touched = capability then some service else host.find? capability :=
  Registry.find?_insert host.context.registry touched service capability

/-- What a plain registration comes to: nothing but a warning where the capability is pinned. -/
theorem Host.register_apply (touched : String) (service : Service) (host : Host) :
    Host.register touched service host =
      if touched ∈ host.context.pinned then
        Host.warning ("capability " ++ touched ++ " is pinned, registration of " ++
          service.type.name ++ " skipped") host
      else match host.context.registry.find? touched with
        | none => ((), (Host.insert touched service host).2)
        | some previous =>
          Host.warning ("capability " ++ touched ++ " re-registered: " ++ previous.type.name ++
            " replaced by " ++ service.type.name) (Host.insert touched service host).2 := by
  unfold Host.register
  show (if _ then _ else _ : HostM Unit) host = _
  by_cases hp : touched ∈ host.context.pinned
  · rw [if_pos hp, if_pos (by simpa using hp)]
  · rw [if_neg hp, if_neg (by simpa using hp)]
    show (match host.context.registry.find? touched with
      | none => _
      | some previous => _ : HostM Unit) _ = _
    cases host.context.registry.find? touched with
    | none => rfl
    | some previous => rfl

/-- A plain registration counts unless the capability is pinned. -/
theorem Host.find?_register (touched : String) (service : Service) (capability : String)
    (host : Host) : (Host.register touched service host).2.find? capability =
      if touched = capability ∧ touched ∉ host.context.pinned then some service
      else host.find? capability := by
  rw [Host.register_apply]
  -- Whether the capability is pinned decides; the warning in either case changes no service.
  by_cases hp : touched ∈ host.context.pinned
  · rw [if_pos hp, if_neg fun h => h.2 hp]
    rfl
  · rw [if_neg hp]
    have hi := Host.find?_insert touched service capability host
    have hs : (if touched = capability ∧ touched ∉ host.context.pinned then some service
        else host.find? capability) =
        if touched = capability then some service else host.find? capability := by
      simp [hp]
    rw [hs, ← hi]
    cases host.context.registry.find? touched with
    | none => rfl
    | some previous => rfl

/-- A plain registration pins nothing and releases nothing. -/
theorem Host.pinned_register (touched : String) (service : Service) (host : Host) :
    (Host.register touched service host).2.context.pinned = host.context.pinned :=
  (calm_context.comp Context.pinned).register (fun _ => rfl) host

/-- **Only a request that touches a capability changes what is found under it.** -/
theorem frames_find?_perform {op : ContextOp} {capability : String}
    (h : ¬ op.Touches capability) : Frames (Host.find? capability) (Host.perform op) := by
  refine (quiet_find? capability).perform ?_ ?_ ?_ ?_
  · intro touched ht service host
    rw [Host.find?_register, if_neg]
    rintro ⟨rfl, _⟩
    exact h ht
  · intro touched ht service host
    rw [Host.find?_pin, if_neg]
    rintro rfl
    exact h ht
  · intro touched ht service host
    rw [Host.find?_insert, if_neg]
    rintro rfl
    exact h ht
  -- Emptying the registry touches every capability.
  · rintro rfl
    exact absurd trivial h

end ServiceHost
