import ServiceHost.Proofs.Launch.Parts

/-!
# Outcomes — a launch comes up, or is refused and stops nothing

Whatever a host discovers and whoever may ask it to stop, a launch has two outcomes. **It comes
up**: every module was set up and started once, the startup is a success, and no error is announced.
Or **it is refused**: no module was stopped, its hook is done and stops none later, the startup is
not complete, and the error is announced once. Which of its many ends a launch that is refused
takes, and whether its hook was asked to run by then, makes no difference.
-/

set_option autoImplicit false

namespace ServiceHost

namespace Launch

variable {brought : Brought} {world : World}

/-- In a launch on a world, modules are found, and they boot under the limits on the host. -/
def Boots (brought : Brought) (world : World) (found : List Module) (limits : Limits)
    (host : Host) : Prop :=
  ∃ opening, opened brought world = .ok opening ∧ Hands brought opening found limits host

/-- In a launch on a world, the act is made on that state. -/
def Makes (brought : Brought) (world : World) (act : Boot.Act) (state : Boot.State) : Prop :=
  ∃ found limits host, Boots brought world found limits host ∧
    Boot.Reaches limits found host act state

theorem undisturbed_of_opened {host : Host} (h : opened brought world = .ok host) :
    world.Undisturbed host.world := by
  have hopened := undisturbed_opened brought world
  rw [h] at hopened
  exact hopened

theorem Boots.undisturbed {found : List Module} {limits : Limits} {host : Host}
    (h : Boots brought world found limits host) : world.Undisturbed host.world := by
  obtain ⟨opening, hopen, hands⟩ := h
  exact (undisturbed_of_opened hopen).trans hands.undisturbed

theorem Boots.exists_made {found : List Module} {limits : Limits} {host : Host}
    (h : Boots brought world found limits host) :
    ∃ made : List (Boot.Act × Boot.State), (∀ call ∈ made, Makes brought world call.1 call.2) ∧
      (Boot.outcome limits found host).2.steps = world.steps ++ made.map Boot.stepOf ∧
      (Boot.outcome limits found host).2.startup = world.startup ∧
      ∀ booted, (Boot.outcome limits found host).1 = .ok booted → ∃ graph order,
        Graph.build (found.map Hosted.fresh) host.context.registry = .ok graph ∧
        graph.order = .ok order ∧ made.map Prod.fst = Boot.script order := by
  obtain ⟨made, hmade, hsteps, hstartup, hall⟩ := Boot.exists_made limits found host
  refine ⟨made, fun call hcall => ⟨found, limits, host, h, hmade call hcall⟩, ?_, ?_, hall⟩
  · rw [hsteps, Host.steps, h.undisturbed.steps]
  · rw [hstartup, Host.startup, h.undisturbed.startup]

/-- How a launch ends, whether its error is announced yet or not: it is refused, having made acts of
its boot at most; or it is up, having made them all and stopped modules at most. -/
inductive Ends (brought : Brought) (world : World) (tried : Attempt × World) : Prop where
  | refused {error : BootError} {made : List (Boot.Act × Boot.State)}
      (outcome : tried.1.outcome = .error error)
      (makes : ∀ call ∈ made, Makes brought world call.1 call.2)
      (steps : tried.2.steps = world.steps ++ made.map Boot.stepOf)
      (startup : tried.2.startup = world.startup)
      (done : ∀ hook, tried.1.hook = some hook → hook.isDone = true)
  | up {handle : Handle} {found : List Module} {limits : Limits} {host : Host} {graph : Graph}
      {order : List Nat} {made : List (Boot.Act × Boot.State)} {stopped : List String}
      (outcome : tried.1.outcome = .ok handle)
      (boots : Boots brought world found limits host)
      (build : Graph.build (found.map Hosted.fresh) host.context.registry = .ok graph)
      (ordered : graph.order = .ok order)
      (makes : ∀ call ∈ made, Makes brought world call.1 call.2)
      (script : made.map Prod.fst = Boot.script order)
      (steps : tried.2.steps = world.steps ++ made.map Boot.stepOf ++
        stopped.map fun name => (.call .shutdown, name))
      (startup : tried.2.startup = .success)

theorem Ends.of_undisturbed {error : BootError} {monitor : Option Monitor} {after : World}
    (h : world.Undisturbed after) :
    Ends brought world ({ outcome := .error error, monitor, hook := none }, after) :=
  @Ends.refused _ _ _ error [] rfl (by simp) (h.steps.trans (List.append_nil _).symm) h.startup
    fun _ hh => by cases hh

theorem ends_attempt (brought : Brought) (world : World) :
    Ends brought world (attempt brought (opened brought world)) := by
  have hopened := undisturbed_opened brought world
  rcases ho : opened brought world with ⟨error, after⟩ | host
  · rw [ho] at hopened
    exact .of_undisturbed hopened
  · rw [ho] at hopened
    have hbrings := bringsUp_bringUp brought host
    unfold attempt
    dsimp only at hopened ⊢
    -- What is attempted adds nothing to what bringing the host up comes to.
    generalize bringUp brought.steps host = result at hbrings
    cases hbrings with
    | unprepared undisturbed => exact .of_undisturbed (hopened.trans undisturbed)
    | refused hands undisturbed =>
      obtain ⟨made, hmade, hsteps, hstartup, _⟩ := Boots.exists_made ⟨host, ho, hands⟩
      refine .refused rfl hmade (undisturbed.steps.trans hsteps)
        (undisturbed.startup.trans hstartup) fun _ hh => ?_
      cases hh
      rfl
    | up hands boots stops startup =>
      have hboots : Boots brought world _ _ _ := ⟨host, ho, hands⟩
      obtain ⟨made, hmade, hsteps, _, hall⟩ := hboots.exists_made
      obtain ⟨graph, order, hgraph, horder, hscript⟩ := hall _ boots
      obtain ⟨stopped, hstopped⟩ := stops
      rw [hsteps] at hstopped
      exact .up rfl hboots hgraph horder hmade hscript hstopped startup

/-- What is announced takes no step and touches no status. -/
theorem Ends.announce {tried : Attempt × World} (h : Ends brought world tried) :
    Ends brought world (announce brought tried) := by
  have hfst := announce_fst brought tried
  have hannounce := undisturbed_announce brought tried
  cases h with
  | refused outcome makes steps startup done =>
    exact .refused (hfst ▸ outcome) makes (hannounce.steps.trans steps)
      (hannounce.startup.trans startup) (hfst ▸ done)
  | up outcome boots build ordered makes script steps startup =>
    exact .up (hfst ▸ outcome) boots build ordered makes script (hannounce.steps.trans steps)
      (hannounce.startup.trans startup)

/-- **A launch is refused, or it is up.** -/
theorem ends_launch (brought : Brought) (world : World) :
    Ends brought world (launch brought.steps world) := by
  rw [launch_eq]
  exact (ends_attempt brought world).announce

/-! ## Launches on a world in which none has come up -/

/-- No launch on the world has come up. -/
inductive NeverUp : World → Prop where
  | new {world : World} (pending : world.startup = startupPending) : NeverUp world
  /-- A launch was refused. -/
  | refused {world : World} {error : BootError} (brought : Brought) (before : NeverUp world)
      (outcome : (launch brought.steps world).1.outcome = .error error) :
      NeverUp (launch brought.steps world).2
  /-- Code has run that can do no more than act on the world. -/
  | effect {α : Type} {world : World} (effect : Effect α) (before : NeverUp world) :
      NeverUp (effect.run world).2

theorem NeverUp.startup_eq (h : NeverUp world) : world.startup = startupPending := by
  induction h with
  | new pending => exact pending
  | effect effect _ ih => exact (effect.startup_run _).trans ih
  | @refused world error brought _ outcome ih =>
    cases ends_launch brought world with
    | refused _ _ _ startup _ => exact startup.trans ih
    | up outcome' => cases outcome.symm.trans outcome'

/-- What a launch comes to. -/
structure Outcome (brought : Brought) (world : World) : Prop where
  /-- The launch is what it is if nobody learns of errors, and if that is refused its error is
  announced at the end, once. -/
  announced : launch brought.steps world = announce brought (launch brought.silent.steps world)
  /-- Whenever a module is injected, set up or started, the startup is not complete. -/
  pending : ∀ act state, Makes brought world act state → state.host.startup = startupPending
  /-- A launch that is refused has made acts of its boot, has stopped no module, and shows no
  startup. Its hook is done, and whoever holds it stops no module either. -/
  refused : ∀ error, (launch brought.steps world).1.outcome = .error error →
    (∃ made : List (Boot.Act × Boot.State), (∀ call ∈ made, Makes brought world call.1 call.2) ∧
      (launch brought.steps world).2.steps = world.steps ++ made.map Boot.stepOf ∧
      ∀ taken ∈ made.map Boot.stepOf, taken.1 ≠ .call .shutdown) ∧
    (launch brought.steps world).2.startup = startupPending ∧
    ∀ hook, (launch brought.steps world).1.hook = some hook → hook.isDone = true ∧
      ∀ (α : Type) (program : HookEffect α) (host : Host),
        (program.after hook host).2.steps = host.steps
  /-- A launch that comes up shows so. It has made the whole script of the modules that were found,
  so that each of them was set up and started once; what was done after that stopped modules. -/
  up : ∀ handle, (launch brought.steps world).1.outcome = .ok handle →
    (launch brought.steps world).2.startup = .success ∧
    ∃ found limits host graph order, ∃ made : List (Boot.Act × Boot.State),
    ∃ stopped : List String,
      Boots brought world found limits host ∧
      Graph.build (found.map Hosted.fresh) host.context.registry = .ok graph ∧
      graph.order = .ok order ∧
      (∀ call ∈ made, Makes brought world call.1 call.2) ∧
      made.map Prod.fst = Boot.script order ∧
      (∀ position < found.length, (made.map Prod.fst).count (.setUp position) = 1 ∧
        (made.map Prod.fst).count (.start position) = 1) ∧
      (launch brought.steps world).2.steps = world.steps ++ made.map Boot.stepOf ++
        stopped.map fun name => (.call .shutdown, name)

/-- **A launch that is refused stops nothing and never shows a startup**, whatever it fails at and
whoever asks it to stop; and one that comes up has brought up every module, once. -/
theorem refused_launch_stops_nothing (h : NeverUp world) : Outcome brought world := by
  have hpending := h.startup_eq
  refine ⟨?_, ?_, ?_, ?_⟩
  -- No step but the last looks at who learns of errors.
  · rw [launch_eq, launch_eq, announce_silent]
    rfl
  · rintro act state ⟨found, limits, host, hboots, hreaches⟩
    exact (hreaches.startup_eq.trans hboots.undisturbed.startup).trans hpending
  · intro error herror
    cases ends_launch brought world with
    | up outcome => cases herror.symm.trans outcome
    | @refused _ made _ makes steps startup done =>
      refine ⟨⟨made, makes, steps, fun taken htaken => ?_⟩, startup.trans hpending,
        fun hook hhook => ⟨done hook hhook, fun _ program host => ?_⟩⟩
      · obtain ⟨call, _, rfl⟩ := List.mem_map.mp htaken
        exact Boot.stepOf_ne_shutdown call
      · have hunarmed := ShutdownHook.unarmed_of_isDone (done hook hhook)
        exact (program.keeps hunarmed host).undisturbed.steps
  · intro handle hok
    cases ends_launch brought world with
    | refused outcome => cases hok.symm.trans outcome
    | @up _ found limits host graph order made stopped _ boots build ordered makes script steps
        startup =>
      refine ⟨startup, found, limits, host, graph, order, made, stopped, boots, build, ordered,
        makes, script, fun position hlt => ?_, steps⟩
      rw [script]
      exact Boot.count_script (Boot.nodup_of_ordered build ordered)
        ((Boot.mem_of_ordered build ordered).mpr hlt)

/-- The locator that finds these modules, and nothing else. -/
def findsModules (modules : List Module) : Locator :=
  .answering
    (fun point _ => .ok <| if point = .service then
      modules.map fun module => { origin := "test", extension := .service module } else [])
    (fun _ _ => .ok none)

/-- A program that asks the host to stop as soon as it is given the hook, with a module that does
not start. -/
def halting : Brought where
  locator := pure <| findsModules
    [{ name := "first", kind := "first" },
      { name := "second", kind := "second"
        start := fun _ => pure (.error (.ofMessage "no port")) }]
  install _ := do
    let _ ← Program.request HookOp.run
    return ()
  onError error monitor := Effect.report monitor {
    level := .severe, message := "refused", cause := some error.toFailure }

def serving : Brought :=
  { halting with locator := pure <| findsModules [CoreServices.module] }

/-- What is left of a launch that was refused. -/
def halted : World :=
  (launch halting.steps {}).2

theorem refused_halting_then_serving :
    NeverUp {} ∧ (∃ error, (launch halting.steps {}).1.outcome = .error error) ∧
    (∃ hook, (launch halting.steps {}).1.hook = some hook ∧ hook.isDone = true) ∧
    (launch halting.steps {}).2.startup = startupPending ∧
    halted.steps =
      [(.inject, "first"), (.call .setUp, "first"), (.inject, "second"), (.call .setUp, "second"),
        (.call .start, "first"), (.call .start, "second")] ∧
    NeverUp halted ∧ (∃ handle, (launch serving.steps halted).1.outcome = .ok handle) ∧
    (launch serving.steps halted).2.startup = .success := by
  have hnew : NeverUp {} := .new rfl
  obtain ⟨error, herror⟩ : ∃ error, (launch halting.steps {}).1.outcome = .error error := by
    have hrefused : (launch halting.steps {}).1.outcome.isOk = false := by decide +kernel
    cases h : (launch halting.steps {}).1.outcome with
    | error error => exact ⟨error, rfl⟩
    | ok _ =>
      rw [h] at hrefused
      cases hrefused
  have hhanded : (launch halting.steps {}).1.hook.isSome = true := by decide +kernel
  obtain ⟨hook, hhook⟩ := Option.isSome_iff_exists.mp hhanded
  have hsteps : halted.steps =
      [(.inject, "first"), (.call .setUp, "first"), (.inject, "second"), (.call .setUp, "second"),
        (.call .start, "first"), (.call .start, "second")] := by decide +kernel
  have hhalting : Outcome halting {} := refused_launch_stops_nothing hnew
  obtain ⟨_, hpending, hdone⟩ := hhalting.refused error herror
  have hstill : NeverUp halted := .refused halting hnew herror
  obtain ⟨handle, hok⟩ : ∃ handle, (launch serving.steps halted).1.outcome = .ok handle := by
    have hup : (launch serving.steps halted).1.outcome.isOk = true := by decide +kernel
    cases h : (launch serving.steps halted).1.outcome with
    | ok handle => exact ⟨handle, rfl⟩
    | error _ =>
      rw [h] at hup
      cases hup
  have hserving : Outcome serving halted := refused_launch_stops_nothing hstill
  exact ⟨hnew, ⟨error, herror⟩, ⟨hook, hhook, (hdone hook hhook).1⟩, hpending, hsteps, hstill,
    ⟨handle, hok⟩, (hserving.up handle hok).1⟩

end Launch

end ServiceHost
