import ServiceHost.Proofs.Boot.Consumers
import ServiceHost.Proofs.Shutdown.Stops

/-!
# Injectors — which modules a shutdown reaches after a boot

A boot can be given an injector of one's own, and moving a module on to `injected` is the
injector's part. The loader does the rest, one stage at a time, and a module that is not where it
should be is left where it is: a record in the log says so, and nothing else. So **what the
injector leaves behind decides whether a booted module counts as started** (`started_iff`), and a
shutdown calls those that do and passes over the others. A module whose injector leaves it as it
was found is set up and started all the same, and never stopped.
-/

set_option autoImplicit false

namespace ServiceHost

/-- A stage that a module reaches on the way up, once its slots are filled. -/
def Stage.Underway (stage : Stage) : Prop :=
  Stage.discovered.isBefore stage = true ∧ stage.isBefore .stopped = true

/-- The stage after a move: the next one where that follows, and else the same. -/
def Stage.moved (stage next : Stage) : Stage :=
  if stage.canAdvanceTo next then next else stage

theorem Hosted.stage_advance_eq (next : Stage) (hosted : Hosted) (host : Host) :
    (hosted.advance next host).1.stage = hosted.stage.moved next := by
  unfold Hosted.advance Stage.moved
  by_cases h : hosted.stage.canAdvanceTo next = true
  · rw [if_pos h, if_pos h]
    rfl
  · rw [if_neg h, if_neg h]
    rfl

theorem Stage.moved_eq_started_iff (stage : Stage) :
    (stage.moved .initialized).moved .started = .started ↔ stage.Underway := by
  unfold Stage.Underway
  cases stage <;> decide

namespace Boot

/-- The injector may leave a module behind as `given` when it does not fail. -/
def Leaves (injector : Injector) (hosted given : Hosted) : Prop :=
  ∃ before after, injector hosted before = ((given, .ok ()), after)

/-- A pass over modules in which no call fails: each is made on the host that the one before it
left. -/
inductive Passes (call : Hosted → BootM Hosted) : List Hosted → Host → List Hosted → Host → Prop
  where
  | nil (host : Host) : Passes call [] host [] host
  | cons {hosted after : Hosted} {rest others : List Hosted} {host mid final : Host}
      (head : (call hosted).on host = (.ok after, mid))
      (tail : Passes call rest mid others final) :
      Passes call (hosted :: rest) host (after :: others) final

section Passing

variable {call : Hosted → BootM Hosted} {modules answers : List Hosted} {host final : Host}

theorem passes_of_mapM (h : (modules.mapM call).on host = (.ok answers, final)) :
    Passes call modules host answers final := by
  induction modules generalizing host answers with
  | nil =>
    cases h
    exact .nil _
  | cons hosted rest ih =>
    rw [List.mapM_cons] at h
    obtain ⟨after, mid, hc, h⟩ := BootM.exists_of_on_bind h
    obtain ⟨others, last, hr, h⟩ := BootM.exists_of_on_bind h
    cases h
    exact .cons hc (ih hr)

end Passing

/-! ## What the loader makes of a module -/

section Calls

variable {injector : Injector} {limits : Limits} {hosted after : Hosted} {host mid : Host}

theorem settle_ok {phase : Phase} {next : Stage} {answer : (Except Failure Memory × Nat) × Host}
    (h : settle limits phase next hosted answer = .ok after) :
    after.module = hosted.module ∧ after.stage = hosted.stage.moved next := by
  rcases answer with ⟨⟨failure | memory, elapsed⟩, last⟩
  · cases h
  · unfold settle at h
    dsimp only at h
    cases ht : limits.timeoutError? phase hosted.name elapsed with
    | some error =>
      rw [ht] at h
      cases h
    | none =>
      rw [ht] at h
      cases h
      exact ⟨Hosted.module_advance _ _ _, Hosted.stage_advance_eq _ _ _⟩

/-- Bringing a module up comes to what the injector leaves, moved on if it can be. -/
theorem exists_leaves_of_bringUp (h : (bringUp injector limits hosted).on host = (.ok after, mid)) :
    ∃ given, Leaves injector hosted given ∧ after.module = given.module ∧
      after.stage = given.stage.moved .initialized := by
  unfold bringUp at h
  rw [BootM.on_bind, inject_on] at h
  rcases hi : injector hosted (host.enter .inject hosted.name) with ⟨⟨given, error | _⟩, last⟩
  · rw [hi] at h
    cases h
  · rw [hi] at h
    have hs := setUp_settles limits given last
    dsimp only at h
    rw [h] at hs
    exact ⟨given, ⟨_, _, hi⟩, settle_ok hs.symm⟩

theorem stage_of_start (h : (start limits hosted).on host = (.ok after, mid)) :
    after.module = hosted.module ∧ after.stage = hosted.stage.moved .started := by
  have hs := start_settles limits hosted host
  rw [h] at hs
  exact settle_ok hs.symm

end Calls

/-! ## The steps of a boot -/

end Boot

/-- The steps in which a host has set modules up, in order. -/
def Host.setUps (host : Host) : List (Step × String) :=
  host.steps.filter fun taken => taken.1 = .call .setUp

theorem quiet_setUps : Quiet Host.setUps :=
  quiet_steps.comp _

theorem setUps_enter (step : Step) (module : String) (host : Host) :
    (host.enter step module).setUps =
      host.setUps ++ if step = .call .setUp then [(step, module)] else [] := by
  unfold Host.setUps
  rw [steps_enter, List.filter_append]
  by_cases h : step = .call .setUp <;> simp [h]

namespace Boot

section Calls

variable {injector : Injector} {limits : Limits} {hosted after : Hosted} {host mid : Host}

/-- With an injector that sets nothing up itself, a module that is brought up is set up once. -/
theorem setUps_bringUp (hi : ∀ hosted, Frames Host.setUps (injector hosted))
    (h : (bringUp injector limits hosted).on host = (.ok after, mid)) :
    mid.setUps = host.setUps ++ [(.call .setUp, after.name)] := by
  unfold bringUp at h
  rw [BootM.on_bind, inject_on] at h
  have hinject := hi hosted (host.enter .inject hosted.name)
  rcases hc : injector hosted (host.enter .inject hosted.name) with ⟨⟨given, error | _⟩, last⟩
  · rw [hc] at h
    cases h
  · rw [hc] at h hinject
    dsimp only at h hinject
    have hs := setUp_settles limits given last
    have hview := view_setUp quiet_setUps.calm limits given last
    rw [h] at hs hview
    have hwork : Frames Host.setUps (Host.contextEffect (given.module.setUp given.memory)) :=
      fun host => congrArg (List.filter _) (frames_steps_contextEffect _ host)
    have hname : after.name = given.name := congrArg Module.name (settle_ok hs.symm).1
    rw [hview, hwork, setUps_enter, hinject, setUps_enter, hname]
    simp

theorem setUps_start (h : (start limits hosted).on host = (.ok after, mid)) :
    mid.setUps = host.setUps := by
  have hview := view_start quiet_setUps.calm limits hosted host
  rw [h, setUps_enter] at hview
  simpa using hview

theorem Passes.setUps_bringUp {modules ready : List Hosted} {final : Host}
    (hi : ∀ hosted, Frames Host.setUps (injector hosted))
    (h : Passes (bringUp injector limits) modules host ready final) :
    final.setUps = host.setUps ++ ready.map fun hosted => (.call .setUp, hosted.name) := by
  induction h with
  | nil _ => simp
  | cons head _ ih =>
    rw [ih, Boot.setUps_bringUp hi head]
    simp

theorem Passes.setUps_start {ready booted : List Hosted} {final : Host}
    (h : Passes (start limits) ready host booted final) : final.setUps = host.setUps := by
  induction h with
  | nil _ => rfl
  | cons head _ ih => rw [ih, Boot.setUps_start head]

end Calls

/-! ## Whole boots -/

section Booted

variable {injector : Injector} {limits : Limits} {modules : List Module} {host final : Host}
  {booted : List Hosted}

/-- What the injector leaves of the modules that are brought up, one for each of them. -/
theorem Passes.exists_left {arranged ready : List Hosted} {mid : Host}
    (h : Passes (bringUp injector limits) arranged host ready mid) :
    ∃ left, List.Forall₂ (Leaves injector) arranged left ∧
      List.Forall₂ (fun given after => after.module = given.module ∧
        after.stage = given.stage.moved .initialized) left ready := by
  induction h with
  | nil _ => exact ⟨[], .nil, .nil⟩
  | cons head _ ih =>
    obtain ⟨given, hgiven, hafter⟩ := exists_leaves_of_bringUp head
    obtain ⟨left, hleft, hready⟩ := ih
    exact ⟨given :: left, .cons hgiven hleft, .cons hafter hready⟩

/-- **A module counts as started exactly if its injector left it on the way up.** -/
theorem started_iff : ∀ {left ready : List Hosted} {mid : Host} {booted : List Hosted},
    List.Forall₂ (fun given after => after.module = given.module ∧
      after.stage = given.stage.moved .initialized) left ready →
    Passes (start limits) ready mid booted final →
    List.Forall₂ (fun given hosted => hosted.module = given.module ∧
      (hosted.stage = .started ↔ given.stage.Underway)) left booted
  | _, _, _, _, .nil, .nil _ => .nil
  | _, _, _, _, .cons hafter hrest, .cons head tail => by
    obtain ⟨hmodule, hstage⟩ := stage_of_start head
    refine .cons ⟨hmodule.trans hafter.1, ?_⟩ (started_iff hrest tail)
    rw [hstage, hafter.2]
    exact Stage.moved_eq_started_iff _

theorem map_module_of_start {ready : List Hosted} {mid : Host}
    (h : Passes (start limits) ready mid booted final) :
    booted.map Hosted.module = ready.map Hosted.module := by
  induction h with
  | nil _ => rfl
  | cons head _ ih => rw [List.map_cons, List.map_cons, ih, (stage_of_start head).1]

theorem exists_passes_of_boot
    (h : (boot injector limits (modules.map Hosted.fresh)).on host = (.ok booted, final)) :
    ∃ order ready mid, plan (modules.map Hosted.fresh) host.context.registry = .ok order ∧
      Passes (bringUp injector limits) (arrange (modules.map Hosted.fresh) order) host ready mid ∧
      Passes (start limits) ready mid booted final := by
  rw [boot_on] at h
  cases hp : plan (modules.map Hosted.fresh) host.context.registry with
  | error error =>
    rw [hp] at h
    cases h
  | ok order =>
    rw [hp] at h
    dsimp only at h
    obtain ⟨ready, mid, hr, h⟩ := BootM.exists_of_on_bind h
    exact ⟨order, ready, mid, rfl, passes_of_mapM hr, passes_of_mapM h⟩

theorem all_started_iff {left : List Hosted}
    (h : List.Forall₂ (fun given hosted => hosted.module = given.module ∧
      (hosted.stage = .started ↔ given.stage.Underway)) left booted) :
    (∀ given ∈ left, given.stage.Underway) ↔ ∀ hosted ∈ booted, hosted.stage = .started := by
  induction h with
  | nil => simp
  | cons head _ ih => rw [List.forall_mem_cons, List.forall_mem_cons, ih, head.2]

theorem stopped_of_all_started (bounds : Limits) (h : ∀ hosted ∈ booted, hosted.stage = .started)
    (host : Host) :
    (Shutdown.calls bounds booted host).map Prod.fst = booted.reverse ∧
    ∀ hosted ∈ (Shutdown.stopAll bounds booted host).1.1, hosted.stage = .stopped := by
  have hall : Shutdown.startedOf booted = booted :=
    List.filter_eq_self.mpr fun hosted hh => decide_eq_true (h hosted hh)
  refine ⟨by rw [Shutdown.map_fst_calls, hall], fun hosted hh => ?_⟩
  have hmem := List.mem_map_of_mem (f := fun hosted => (hosted.module, hosted.stage)) hh
  rw [Shutdown.modules_stopAll] at hmem
  obtain ⟨before, hbefore, heq⟩ := List.mem_map.mp hmem
  rw [← (Prod.mk.inj heq).2, h before hbefore]
  rfl

/-- **Which modules a shutdown reaches after a boot**, whatever the injector. The modules are
brought up one after the other and answered in that order. Each is what the injector left of it,
and is started exactly if the injector left it on the way up. A shutdown calls those that are
started, once each, in the reverse of that order; so it calls all of them and leaves all of them
stopped exactly if the injector left every one on the way up. -/
theorem shutdown_reaches_started
    (h : (boot injector limits (modules.map Hosted.fresh)).on host = (.ok booted, final)) :
    ∃ order ready mid left,
      plan (modules.map Hosted.fresh) host.context.registry = .ok order ∧
      Passes (bringUp injector limits) (arrange (modules.map Hosted.fresh) order) host ready mid ∧
      Passes (start limits) ready mid booted final ∧
      booted.map Hosted.module = ready.map Hosted.module ∧
      ((∀ hosted, Frames Host.setUps (injector hosted)) →
        final.setUps = host.setUps ++
          booted.map fun hosted => (.call .setUp, hosted.name)) ∧
      List.Forall₂ (Leaves injector) (arrange (modules.map Hosted.fresh) order) left ∧
      List.Forall₂ (fun given hosted => hosted.module = given.module ∧
        (hosted.stage = .started ↔ given.stage.Underway)) left booted ∧
      ∀ bounds : Limits,
        (Shutdown.calls bounds booted final).map Prod.fst =
          (Shutdown.startedOf booted).reverse ∧
        (Shutdown.stopAll bounds booted final).2.steps =
          final.steps ++ Shutdown.stepsOf booted ∧
        ((∀ given ∈ left, given.stage.Underway) ↔
          (∀ hosted ∈ booted, hosted.stage = .started) ∧
          (Shutdown.calls bounds booted final).map Prod.fst = booted.reverse ∧
          ∀ hosted ∈ (Shutdown.stopAll bounds booted final).1.1, hosted.stage = .stopped) := by
  obtain ⟨order, ready, mid, hplan, hbring, hstart⟩ := exists_passes_of_boot h
  obtain ⟨left, hleft, hready⟩ := hbring.exists_left
  have hstarted := started_iff hready hstart
  have hmodules := map_module_of_start hstart
  refine ⟨order, ready, mid, left, hplan, hbring, hstart, hmodules, ?_, hleft, hstarted, ?_⟩
  · intro hi
    have hnames : booted.map Hosted.name = ready.map Hosted.name := by
      have := congrArg (List.map Module.name) hmodules
      rwa [List.map_map, List.map_map] at this
    rw [hstart.setUps_start, hbring.setUps_bringUp hi]
    have := congrArg (List.map fun name => (Step.call .setUp, name)) hnames
    rw [List.map_map, List.map_map] at this
    exact congrArg _ this.symm
  · intro bounds
    refine ⟨Shutdown.map_fst_calls _ _ _, Shutdown.steps_stopAll _ _ _, ?_⟩
    rw [all_started_iff hstarted]
    exact ⟨fun hall => ⟨hall, stopped_of_all_started bounds hall final⟩, fun hall => hall.1⟩

/-- With the injector that fills slots from the registry, all modules that come up are stopped. -/
theorem shutdown_of_twoStores :
    ∃ booted final,
      (boot Injection.fromRegistry {} (twoStores.map Hosted.fresh)).on clockHost =
        (.ok booted, final) ∧
      final.setUps.map Prod.snd = ["first", "second", "web"] ∧
      (Shutdown.calls {} booted final).map (·.1.name) = ["web", "second", "first"] ∧
      ∀ hosted ∈ (Shutdown.stopAll {} booted final).1.1, hosted.stage = .stopped := by
  have hseen : (boot Injection.fromRegistry {} (twoStores.map Hosted.fresh) |>.on clockHost).1.map
      (·.map fun hosted => (hosted.name, hosted.stage)) =
        .ok [("first", .started), ("second", .started), ("web", .started)] := by decide +kernel
  rcases hb : (boot Injection.fromRegistry {} (twoStores.map Hosted.fresh)).on clockHost with
    ⟨answer, final⟩
  rw [hb] at hseen
  obtain ⟨booted, rfl, hpairs⟩ := map_eq_ok_iff.mp hseen
  have hnames := congrArg (List.map Prod.fst) hpairs
  have hstages := congrArg (List.map Prod.snd) hpairs
  rw [List.map_map] at hnames hstages
  have hall : ∀ hosted ∈ booted, hosted.stage = .started := by
    intro hosted hh
    have hmem := hstages ▸ List.mem_map_of_mem (f := Prod.snd ∘ fun hosted : Hosted =>
      (hosted.name, hosted.stage)) hh
    simpa using hmem
  obtain ⟨_, _, _, left, _, _, _, _, hsetUps, _, hleft, hshutdown⟩ := shutdown_reaches_started hb
  obtain ⟨_, _, hreach⟩ := hshutdown {}
  obtain ⟨_, hcalls, hstopped⟩ := hreach.mp ((all_started_iff hleft).mpr hall)
  refine ⟨booted, final, rfl, ?_, ?_, hstopped⟩
  · rw [hsetUps fun hosted => Injection.frames_fromRegistry quiet_setUps.calm hosted, List.map_append,
      List.map_map]
    exact hnames
  · have hnames' := congrArg (List.map Hosted.name) hcalls
    rw [List.map_map, List.map_reverse] at hnames'
    exact hnames'.trans (congrArg List.reverse hnames)

/-- The injector that fills no slot and leaves every module as it was found. -/
def leaveAlone : Injector := fun hosted => return (hosted, .ok ())

/-- **Not every module that comes up is stopped.** Where the injector leaves it as it was found, a
module is set up and started, is answered as merely discovered, and gets no call at shutdown. -/
theorem leaveAlone_never_stopped :
    ∃ booted final,
      (boot leaveAlone {} [Hosted.fresh { name := "A", kind := "A" }]).on {} =
        (.ok booted, final) ∧
      final.steps = [(.inject, "A"), (.call .setUp, "A"), (.call .start, "A")] ∧
      booted.map Hosted.stage = [.discovered] ∧
      (Shutdown.stopAll {} booted final).2.steps = final.steps ∧
      (Shutdown.stopAll {} booted final).1.1.map Hosted.stage = [.discovered] :=
  ⟨_, _, rfl, by decide +kernel, rfl, by decide +kernel, by decide +kernel⟩

end Booted

end Boot

end ServiceHost
